/-! Finite sets of names as strictly increasing lists.

Names are ordered by code points, which is the order of their UTF-8 bytes.
-/

set_option autoImplicit false

namespace Scriptlet.NameSet

/-- Put a name in its place, once. -/
def insert (name : String) : List String → List String
  | [] => [name]
  | head :: rest =>
    if name < head then name :: head :: rest
    else if name = head then head :: rest
    else head :: insert name rest

def ofList (names : List String) : List String :=
  names.foldr insert []

theorem mem_insert (name other : String) (names : List String) :
    other ∈ insert name names ↔ other = name ∨ other ∈ names := by
  induction names with
  | nil => simp [insert]
  | cons head rest ih =>
    simp only [insert]
    split
    · simp
    · split
      · next same => simp [same]
      · simp only [List.mem_cons, ih]
        exact or_left_comm

@[simp] theorem mem_ofList (name : String) (names : List String) :
    name ∈ ofList names ↔ name ∈ names := by
  induction names with
  | nil => simp [ofList]
  | cons head rest ih =>
    simp only [ofList, List.foldr_cons, List.mem_cons] at ih ⊢
    rw [mem_insert, ih]

end Scriptlet.NameSet
