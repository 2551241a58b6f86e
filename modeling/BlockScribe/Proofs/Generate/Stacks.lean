import BlockScribe.Proofs.Generate.Confined
import BlockScribe.Proofs.Generate.Outputs
/-!
# The blocks around a block

A block goes to its rule while the rules of the blocks around it are running: those that hold
it in a value or statement input, directly or through a chain of successors, and the blocks
around them, since `Generation.dispatch` puts each block it gives to its rule in front of the
ancestors.  `Workspace.Within w j σ` says that `σ` lists them, innermost first: a root has none,
a block in an input of `p` has `p` and those around `p`, and a successor has those of the block
before it.  A position may have several such lists, where links are shared; a generation reaches
each block once, along one of them, and the statements about a generation name that one with a
function `π` from the reached blocks to the blocks around them.

A procedure definition is written apart from the code around it, so the code of a block ends up
in the definition nearest around it, if there is one (`Workspace.home`).  Registering a
procedure replaces an earlier one of the same name, and a definition registers its procedure
when its rule ends: after everything inside it, and before everything reached after it.  So an
enabled definition `D` registers after `h` when it lies around `h`, or is reached after `h`
without `h` lying around it (`Workspace.RegistersAfter`); when it has the same name, it
overwrites `h` (`Workspace.Overwrites`).
-/

namespace BlockScribe

/-- The key under which a procedure definition is named: its name, without case. -/
def Block.procedureKey (b : Block) : NameKind × String :=
  (.procedure, Text.lower (textField b "NAME"))

/-- Whether a block is a loop, by its kind. -/
def Block.isLoop (b : Block) : Bool := (BlockKind.ofName? b.kind).any BlockKind.isLoop

namespace Workspace

/-- `σ` lists the blocks around the block at `j`, innermost first. -/
inductive Within (w : Workspace) : Nat → List Nat → Prop
  | root {r : Nat} : r ∈ w.roots → Within w r []
  | input {p j : Nat} {σ : List Nat} {b : Block} :
      Within w p σ → w.get? p = some b → j ∈ b.inputs → Within w j (p :: σ)
  | next {p j : Nat} {σ : List Nat} {b : Block} :
      Within w p σ → w.get? p = some b → b.next = some j → Within w j σ

/-- The blocks at some positions. -/
def blocksAt (w : Workspace) (σ : List Nat) : List Block := σ.filterMap w.get?

/-- Whether the block at a position is an enabled procedure definition. -/
def definesAt (w : Workspace) (j : Nat) : Bool :=
  (w.get? j).any fun b => !b.disabled && (BlockKind.ofName? b.kind).any BlockKind.isDefinition

/-- The innermost procedure definition among positions listed innermost first. -/
def home (w : Workspace) (js : List Nat) : Option Nat := js.find? w.definesAt

/-- `D` registers its procedure after `h` does, where `π` gives the blocks around each reached
block: `D` lies around `h`, or it is reached after `h` and `h` does not lie around it.  `seen`
lists the reached blocks, latest first. -/
def RegistersAfter (π : Nat → List Nat) (seen : List Nat) (D h : Nat) : Prop :=
  D ∈ π h ∨ ([D, h].Sublist seen ∧ h ∉ π D)

/-- The procedure defined at `h` is overwritten by the definition at `D`: another reached,
enabled definition of the same name that registers after it. -/
def Overwrites (w : Workspace) (π : Nat → List Nat) (seen : List Nat) (h D : Nat) : Prop :=
  D ≠ h ∧ D ∈ seen ∧ w.definesAt D = true ∧
    (∃ bh bD, w.get? h = some bh ∧ w.get? D = some bD ∧ bD.procedureKey = bh.procedureKey) ∧
    RegistersAfter π seen D h

variable {w : Workspace} {i j p : Nat} {σ σ' : List Nat} {b : Block}

namespace Within

theorem value (hp : w.Within p σ) (hb : w.get? p = some b) {slot : String}
    (hslot : b.value? slot = some i) : w.Within i (p :: σ) :=
  .input hp hb (Block.target_mem_inputs (show b.target (.value slot) = some i from hslot))

theorem statement (hp : w.Within p σ) (hb : w.get? p = some b) {slot : String}
    (hslot : b.statement? slot = some i) : w.Within i (p :: σ) :=
  .input hp hb (Block.target_mem_inputs (show b.target (.body slot) = some i from hslot))

end Within

@[simp] theorem blocksAt_nil : w.blocksAt [] = [] := rfl

theorem blocksAt_cons (hb : w.get? p = some b) (σ : List Nat) :
    w.blocksAt (p :: σ) = b :: w.blocksAt σ := by
  simp [blocksAt, hb]

theorem definesAt_iff : w.definesAt j = true ↔
    ∃ b k, w.get? j = some b ∧ b.disabled = false ∧ BlockKind.ofName? b.kind = some k ∧
      k.isDefinition = true := by
  unfold definesAt
  cases w.get? j with
  | none => simp
  | some b =>
    cases hk : BlockKind.ofName? b.kind <;> simp [hk]

theorem home_cons_of_definesAt (h : w.definesAt j = true) (js : List Nat) :
    w.home (j :: js) = some j := by
  simp [home, h]

theorem home_cons_of_not (h : w.definesAt j = false) (js : List Nat) :
    w.home (j :: js) = w.home js := by
  simp [home, h]

theorem home_append_of_some {js : List Nat} {h : Nat} (hh : w.home js = some h) (js' : List Nat) :
    w.home (js ++ js') = some h := by
  unfold home at hh ⊢
  rw [List.find?_append, hh]
  rfl

theorem home_append_of_none {js : List Nat} (hh : w.home js = none) (js' : List Nat) :
    w.home (js ++ js') = w.home js' := by
  unfold home at hh ⊢
  rw [List.find?_append, hh]
  rfl

/-- A block that defines no procedure, put last, changes no home. -/
theorem home_append_of_not (h : w.definesAt j = false) (js : List Nat) :
    w.home (js ++ [j]) = w.home js := by
  rcases hh : w.home js with _ | h'
  · rw [home_append_of_none hh, home_cons_of_not h]
    rfl
  · exact home_append_of_some hh _

theorem mem_of_home {js : List Nat} {h : Nat} (hh : w.home js = some h) :
    h ∈ js ∧ w.definesAt h = true :=
  ⟨List.mem_of_find?_eq_some hh, by simpa using List.find?_some hh⟩

end Workspace

end BlockScribe
