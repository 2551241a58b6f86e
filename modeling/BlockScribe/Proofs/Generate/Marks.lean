import BlockScribe.Proofs.Generate.Stacks
import BlockScribe.Proofs.Text.Held
/-!
# The instrumentation of a block

With a statement prefix and suffix configured, every statement runs the prefix, with its
block's id written where it says `%1`, before its code, and the suffix after it.  Most kinds
get both around their code (`Config.wrapStatement`); the others place them themselves, and
some kinds place more:
* `break` and `continue` run their own suffix and then the prefix of the loop they leave, the
  innermost loop around them;
* an early `return` runs the block's suffix, indented, first;
* every arm of an `if` chain opens with the block's suffix, indented, and a chain gets an
  `else` arm when a suffix is configured, so that the suffix runs on every path.

`Instrumented c around b k t` says that the text `t` holds all of this for the block `b` of kind
`k`, with the blocks `around` it, innermost first: each snippet is held in `t`, up to the
indentation that bodies get (`Text.Held`).  The part that depends on the kind is `Shaped`.
Holding it is kept when the text is placed in a longer one (`Instrumented.mono`).
-/

namespace BlockScribe

/-- The statement that ends a loop turn: `continue;` when the FLOW field asks for it, and
`break;` otherwise. -/
def Block.flowWord (b : Block) : String :=
  if b.field? "FLOW" = some "CONTINUE" then "continue;" else "break;"

/-- The number of arms of an `if` chain: its declared `else if` arms and the first, cut to
those connected, and at least one. -/
def Block.ifArity (b : Block) : Nat :=
  max (connectedArity b (min (b.extra.elseIfCount + 1) countMax) ["IF", "DO"]) 1

/-- The prefix of the innermost loop among some blocks, or nothing. -/
def Config.loopPrefix (c : Config) (around : List Block) : String :=
  ((around.find? Block.isLoop).bind c.prefixFor).getD ""

/-- An arm of an `if` chain: its condition, then the exit suffix and its branch in braces. -/
def ifArm (suffix : String) (arm : String × String) : String :=
  "if (" ++ arm.1 ++ ") \x7b\n" ++ suffix ++ arm.2 ++ "\x7d"

/-- The `else` arm of an `if` chain. -/
def elseArm (suffix branch : String) : String := " else \x7b\n" ++ suffix ++ branch ++ "\x7d"

/-- The arms of an `if` chain, each opening with the exit suffix, and perhaps an `else` arm. -/
def ifChain (suffix : String) (arms : List (String × String)) (els : Option String) : String :=
  " else ".intercalate (arms.map (ifArm suffix)) ++ (els.map (elseArm suffix)).getD ""

/-- What `t` holds of the instrumentation that depends on the kind `k` of `b`. -/
structure Shaped (c : Config) (around : List Block) (b : Block) (k : BlockKind)
    (t : List Char) : Prop where
  /-- `break` and `continue` run the block's suffix, then the prefix of the loop around. -/
  flow : k = .flowStatement →
    Text.Held ((c.suffixFor b).getD "" ++ c.loopPrefix around ++ b.flowWord).toList t
  /-- An early `return` runs the block's suffix first. -/
  exit : k = .ifReturn → Text.Held (c.earlyExitSuffix b ++ c.indent ++ "return").toList t
  /-- Every arm of an `if` chain opens with the block's suffix, and there is an `else` arm
  when a suffix is configured. -/
  arms : k = .controlsIf ∨ k = .controlsIfElse → ∃ arms els, arms.length = b.ifArity ∧
    els.isSome = (k == .controlsIfElse || b.extra.hasElse || (c.suffixFor b).isSome) ∧
    Text.Held (ifChain (c.earlyExitSuffix b) arms els).toList t

/-- `t` holds the instrumentation of the block `b` of kind `k`, with the blocks `around` it. -/
structure Instrumented (c : Config) (around : List Block) (b : Block) (k : BlockKind)
    (t : List Char) : Prop extends Shaped c around b k t where
  pre : Text.Held ((c.prefixFor b).getD "").toList t
  suf : Text.Held ((c.suffixFor b).getD "").toList t

variable {c : Config} {around : List Block} {b : Block} {k : BlockKind} {t t' : List Char}

namespace Shaped

theorem mono (h : Shaped c around b k t) (ht : Text.Held t t') : Shaped c around b k t' where
  flow hk := (h.flow hk).trans ht
  exit hk := (h.exit hk).trans ht
  arms hk := by
    obtain ⟨arms, els, hlen, hels, hheld⟩ := h.arms hk
    exact ⟨arms, els, hlen, hels, hheld.trans ht⟩

/-- A kind with no instrumentation of its own. -/
theorem of_plain (hflow : k ≠ .flowStatement) (hexit : k ≠ .ifReturn) (hif : k ≠ .controlsIf)
    (hifElse : k ≠ .controlsIfElse) : Shaped c around b k t where
  flow hk := absurd hk hflow
  exit hk := absurd hk hexit
  arms hk := (hk.elim hif hifElse).elim

end Shaped

theorem Instrumented.mono (h : Instrumented c around b k t) (ht : Text.Held t t') :
    Instrumented c around b k t' :=
  { h.toShaped.mono ht with
    pre := h.pre.trans ht
    suf := h.suf.trans ht }

/-- **A statement between its prefix and suffix** holds them, and whatever its code held. -/
theorem Instrumented.wrap (hk : k.placesOwnSnippets = false) (h : Shaped c around b k t) :
    Instrumented c around b k (c.wrapStatement k b (String.ofList t)).toList := by
  rw [Config.wrapStatement, hk, if_neg Bool.false_ne_true, String.toList_append,
    String.toList_append, String.toList_ofList]
  exact { h.mono (Text.Held.part _ _) with
    pre := by simpa using Text.Held.part (x := ((c.prefixFor b).getD "").toList) [] (t ++ _)
    suf := by simpa using Text.Held.part (x := ((c.suffixFor b).getD "").toList) (_ ++ t) [] }

end BlockScribe
