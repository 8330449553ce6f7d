import Intake.Fault

/-!
# Listings in pages

A long list is asked for page by page. Each page may name the next one; the listing is
finished by the first page that does not. What was asked for is bounded, so a listing that
goes on and on is given up as unfinished.
-/

namespace Intake

/-- A part of a list, and the name of the next part if there is one. -/
structure Page (α : Type) where
  items : List α
  next : Option String

/-- How one page is fetched: the first one without a name, the others by the name that the
page before them gave. -/
abbrev Pager (σ α : Type) := Option String → σ → Except Fault (Page α) × σ

/-- The items of at most this many pages, from the named one on. -/
def Pager.gather {σ α : Type} (pager : Pager σ α) :
    Nat → Option String → σ → Except Fault (List α) × σ
  | 0, _, remote => (.error .unfinished, remote)
  | pages + 1, name, remote =>
    match pager name remote with
    | (.error f, remote) => (.error f, remote)
    | (.ok page, remote) =>
      match page.next with
      | none => (.ok page.items, remote)
      | some next =>
        match gather pager pages (some next) remote with
        | (.ok items, remote) => (.ok (page.items ++ items), remote)
        | (.error f, remote) => (.error f, remote)

end Intake
