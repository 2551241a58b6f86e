import BlockScribe.Proofs.Text.LinePrefix
/-!
# A text held in another

Generation writes the code of a block and then places it in the code of the blocks around it:
as a piece of a longer text, or as a body, with a prefix before each of its lines
(`Text.prefixLines`).  `Text.Held x t` says that `x` survives this: it stands in `t` as a
piece, or it is held in a text that stands in `t` with its lines prefixed.  Holding is
transitive (`Text.Held.trans`), so what a block's code holds is held by every code built
around it.

Prefixing lines only inserts text after line breaks, so a held text that starts a line with
`l` still starts a line with `l`, after some indentation (`Text.Held.line_start`).
-/

namespace BlockScribe
namespace Text

/-- `x` is held in `t`: it stands in `t` as a piece, or it is held in a text that stands in `t`
with a prefix before each of its lines. -/
inductive Held (x : List Char) : List Char → Prop
  | part (a b : List Char) : Held x (a ++ x ++ b)
  | indent (u a b : List Char) {t : List Char} : Held x t → Held x (a ++ prefixList t u ++ b)

namespace Held

variable {x t t' : List Char}

theorem refl (x : List Char) : Held x x := by
  simpa using part (x := x) [] []

/-- What a text holds, a longer text around it holds too. -/
theorem around (h : Held x t) (a b : List Char) : Held x (a ++ t ++ b) := by
  induction h with
  | part a' b' => simpa only [List.append_assoc] using part (x := x) (a ++ a') (b' ++ b)
  | indent u a' b' h' _ => simpa only [List.append_assoc] using indent u (a ++ a') (b' ++ b) h'

theorem append_left (h : Held x t) (a : List Char) : Held x (a ++ t) := by
  simpa using h.around a []

theorem append_right (h : Held x t) (b : List Char) : Held x (t ++ b) := by
  simpa using h.around [] b

/-- What a text holds, the text with its lines prefixed holds too. -/
theorem prefixList (h : Held x t) (u : List Char) : Held x (Text.prefixList t u) := by
  simpa using indent u [] [] h

/-! A string holds what the string around it holds, with its lines prefixed or not. -/

theorem string_left {s : String} (h : Held x s.toList) (a : String) : Held x (a ++ s).toList := by
  rw [String.toList_append]
  exact h.append_left _

theorem string_right {s : String} (h : Held x s.toList) (a : String) : Held x (s ++ a).toList := by
  rw [String.toList_append]
  exact h.append_right _

theorem prefixLines {s : String} (h : Held x s.toList) (u : String) :
    Held x (Text.prefixLines s u).toList := by
  rw [Text.prefixLines, String.toList_ofList]
  exact h.prefixList _

/-- A string holds each of its pieces. -/
theorem string_part (x a b : String) : Held x.toList (a ++ x ++ b).toList := by
  rw [String.toList_append, String.toList_append]
  exact part _ _

/-- **Holding is transitive.** -/
theorem trans (h : Held x t) (h' : Held t t') : Held x t' := by
  induction h' with
  | part a b => exact h.around a b
  | indent u a b _ ih => exact indent u a b ih

/-- In a text with its lines prefixed by `u`, a line break followed by a piece that does not
end the text with a line break is followed by `u` and the piece, its own line breaks followed
by `u` too. -/
theorem newline_infix_prefixList {m t : List Char} (hm : m ≠ []) (hlast : m.getLast? ≠ some '\n')
    (h : '\n' :: m <:+: t) (u : List Char) :
    '\n' :: (u ++ spread u m) <:+: Text.prefixList t u := by
  obtain ⟨p, q, rfl⟩ := h
  obtain ⟨m₀, c, rfl⟩ := (List.eq_nil_or_concat' m).resolve_left hm
  have hc : c ≠ '\n' := fun hc => hlast (by simp [hc])
  rcases List.eq_nil_or_concat' q with rfl | ⟨q₀, d, rfl⟩
  · -- the piece ends the text: its last character stays where it is
    have ht : p ++ '\n' :: (m₀ ++ [c]) ++ [] = (p ++ '\n' :: m₀) ++ [c] := by simp
    rw [ht, prefixList_concat]
    simp only [spread_append, spread_newline, spread_cons_of_ne hc, spread_nil]
    exact ⟨u ++ spread u p, [], by simp⟩
  · have ht : p ++ '\n' :: (m₀ ++ [c]) ++ (q₀ ++ [d]) = (p ++ '\n' :: (m₀ ++ [c]) ++ q₀) ++ [d] := by
      simp
    rw [ht, prefixList_concat]
    simp only [spread_append, spread_newline, spread_cons_of_ne hc, spread_nil]
    exact ⟨u ++ spread u p, spread u q₀ ++ [d], by simp⟩

/-- **A held line start stays a line start.**  If `x` starts a new line with `l`, which has no
line break, then wherever `x` is held a line break is followed, after some indentation, by
`l`. -/
theorem line_start {l rest : List Char} (hl : l ≠ []) (hnl : '\n' ∉ l)
    (h : Held ('\n' :: l ++ rest) t) : ∃ u, '\n' :: (u ++ l) <:+: t := by
  induction h with
  | part a b => exact ⟨[], a, rest ++ b, by simp⟩
  | indent u a b _ ih =>
    obtain ⟨v, hv⟩ := ih
    -- the piece ends with `l`, so not with a line break
    have hlast : (v ++ l).getLast? ≠ some '\n' := by
      rw [List.getLast?_append_of_ne_nil _ hl]
      exact fun he => hnl (List.mem_of_getLast? he)
    have hin := newline_infix_prefixList (by simp [hl]) hlast hv u
    rw [spread_append, spread_of_not_mem hnl, ← List.append_assoc] at hin
    exact ⟨u ++ spread u v, hin.trans (List.infix_append a _ b)⟩

end Held

end Text
end BlockScribe
