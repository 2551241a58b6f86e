/-!
# Replacing a pattern

`replace pat rep cs` scans `cs` from the left and writes `rep` for each occurrence of the
nonempty pattern `pat`, occurrences not overlapping; an empty pattern replaces nothing.

Source: the replacing of `cumin-compiler/src/generator/instrument.rs` (`inject_id`) and
`definitions.rs` (`provide`).
-/

namespace BlockScribe
namespace Text

/-- Every occurrence of `pat` in `cs`, read from the left, replaced by `rep`. -/
def replaceList (pat rep : List Char) (cs : List Char) : List Char :=
  match cs with
  | [] => []
  | c :: rest =>
    if _hpat : pat ≠ [] ∧ pat.isPrefixOf (c :: rest) then
      rep ++ replaceList pat rep ((c :: rest).drop pat.length)
    else c :: replaceList pat rep rest
termination_by cs.length
decreasing_by
  · have : 0 < pat.length := List.length_pos_iff.mpr _hpat.1
    simp only [List.length_drop, List.length_cons]
    omega
  · simp

/-- Every occurrence of `pat` in a text replaced by `rep`. -/
def replace (s pat rep : String) : String :=
  String.ofList (replaceList pat.toList rep.toList s.toList)

example : replace "f(%1, %1)" "%1" "'a'" = "f('a', 'a')" := by decide +kernel

end Text
end BlockScribe
