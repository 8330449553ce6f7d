import Intake.Digest

/-!
# File stems of locators

A locator is made into a single name of a file. Separators of paths become underscores;
a locator that has separators also gets the beginning of its digest, so that locators
that differ only in separators keep different names.
-/

namespace Intake.Document

def isSeparator (c : Char) : Bool := c == '/' || c == '\\'

def flatten (locator : String) : String :=
  String.ofList (locator.toList.map fun c => if isSeparator c then '_' else c)

def stemDigits : Nat := 8

/-- The name of the files of a document, without extension. -/
def stem (locator : String) : String :=
  if locator.toList.any isSeparator then
    let digest := Digest.sha256Hex locator.toUTF8
    String.ofList ((flatten locator).toList ++ '-' :: digest.toList.take stemDigits)
  else locator

end Intake.Document
