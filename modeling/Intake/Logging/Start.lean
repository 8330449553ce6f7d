import Intake.Files.Changes
import Intake.Logging.Directive

/-!
# Setting up the log

Before anything is logged, the filter has to be understood and the directory of the log
files has to be there if lines go to a file.
-/

namespace Intake.Logging.Config

open Files (FileSystem)

def checkFilter (c : Config) : Except Problem Unit :=
  if (Directive.pieces (c.filter.getD "")).all Directive.fits then .ok ()
  else .error .badDirective

def start (c : Config) (fs : FileSystem) : Except Problem Unit × FileSystem :=
  match c.checkFilter with
  | .error problem => (.error problem, fs)
  | .ok () =>
    if c.target.usesFile then
      match fs.makeDirs c.directory with
      | (.ok (), fs) => (.ok (), fs)
      | (.error e, fs) => (.error (.noDirectory e), fs)
    else (.ok (), fs)

end Intake.Logging.Config
