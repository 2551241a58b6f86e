/-!
# Named slots

A block holds its fields, value inputs and statement inputs under names, in the order in which
each name was first filled.  Filling a name again replaces its content in place
(`Slots.insert`), so the order of names never changes once a name is present.

Source: `cumin-core/src/node.rs` (`field`, `value`, `statement`) and the builder of `workspace.rs`.
-/

namespace BlockScribe

/-- Contents under names, in the order in which the names were first filled. -/
structure Slots (α : Type) where
  entries : List (String × α)
  deriving Repr, Inhabited, DecidableEq

namespace Slots

variable {α : Type}

/-- No slot filled. -/
def empty : Slots α := ⟨[]⟩

/-- Puts `a` under `name`: in place of the old content if the name is filled, at the end
otherwise. -/
def insertList (name : String) (a : α) : List (String × α) → List (String × α)
  | [] => [(name, a)]
  | (n, b) :: rest => if n = name then (n, a) :: rest else (n, b) :: insertList name a rest

/-- Fills a slot, keeping the position of a name already present. -/
def insert (s : Slots α) (name : String) (a : α) : Slots α := ⟨insertList name a s.entries⟩

/-- The content under a name. -/
def get? (s : Slots α) (name : String) : Option α := (s.entries.find? (·.1 == name)).map (·.2)

/-- The names, in order. -/
def names (s : Slots α) : List String := s.entries.map (·.1)

/-- The contents, in the order of their names. -/
def contents (s : Slots α) : List α := s.entries.map (·.2)

/-- Slots filled from a list of pairs in order, a repeated name keeping its first position
and its last content. -/
def ofList (pairs : List (String × α)) : Slots α := pairs.foldl (fun s (n, a) => s.insert n a) empty

theorem names_insertList_of_mem (name : String) (a : α) (l : List (String × α))
    (h : name ∈ l.map (·.1)) : (insertList name a l).map (·.1) = l.map (·.1) := by
  induction l with
  | nil => simp at h
  | cons p rest ih =>
    obtain ⟨n, b⟩ := p
    by_cases hn : n = name
    · simp [insertList, hn]
    · have hr : name ∈ rest.map (·.1) := by
        simp only [List.map_cons, List.mem_cons] at h
        rcases h with h | h
        · exact absurd h.symm hn
        · exact h
      simp [insertList, hn, ih hr]

end Slots

end BlockScribe
