import BlockScribe.Naming.Registry
import BlockScribe.Proofs.Naming.Calls
/-!
# The registry keeps first registrations

Generation registers its definitions through three calls on the registry (`RegistryCall`), made
between calls on the name table it shares: `Registry.provide` for a helper,
`Registry.defineProcedure` for a procedure and `Registry.declareVariables` for the line that
declares the variables.  A call adds its key last unless the key is registered already, and never
drops or moves one (`RegistryCall.keys_run`); so the keys of a run are those of its calls, each
once, in the order of their first call (`RegistryCall.keys_runAll`), and the codes follow the keys.

A helper is registered by the first call that provides it; every later call hands the same name
back and changes neither the registry nor the table (`RegistryCall.find?_helper_runAll`,
`Registry.provide_of_find?`).  Any other key keeps the definition of its last call
(`RegistryCall.find?_runAll_of_key_ne`).  Together: `registry_keeps_first_registrations`.
-/

namespace BlockScribe

/-- Replacing an element that a test rejects by another it rejects leaves what the test finds. -/
theorem List.find?_set_of_not {α : Type} {p : α → Bool} {x : α} (hx : p x = false) :
    ∀ (l : List α) (i : Nat), (∀ h : i < l.length, p l[i] = false) →
      (l.set i x).find? p = l.find? p
  | [], _, _ => rfl
  | a :: l, 0, h => by
    have ha : p a = false := h (Nat.zero_lt_succ _)
    simp [hx, ha]
  | a :: l, i + 1, h => by
    rw [List.set_cons_succ, List.find?_cons, List.find?_cons,
      find?_set_of_not hx l i fun hi => h (Nat.succ_lt_succ hi)]

/-- Replacing the first element that a test accepts by another it accepts makes the test find the
new one. -/
theorem List.find?_set_of_first {α : Type} {p : α → Bool} {x : α} (hx : p x = true) :
    ∀ (l : List α) (i : Nat), i < l.length → (∀ j < i, ∀ h : j < l.length, p l[j] = false) →
      (l.set i x).find? p = some x
  | [], _, hi, _ => absurd hi (Nat.not_lt_zero _)
  | a :: l, 0, _, _ => by simp [hx]
  | a :: l, i + 1, hi, h => by
    have ha : p a = false := h 0 (Nat.zero_lt_succ _) (Nat.zero_lt_succ _)
    rw [List.set_cons_succ, List.find?_cons_of_neg (by simp [ha])]
    exact find?_set_of_first hx l i (Nat.lt_of_succ_lt_succ hi)
      fun j hj hl => h (j + 1) (Nat.succ_lt_succ hj) (Nat.succ_lt_succ hl)

/-- In a list whose keys are distinct, the values are what the keys look up, in order. -/
theorem List.map_snd_eq_filterMap_find? {α β : Type} [DecidableEq α] :
    ∀ (l : List (α × β)), (l.map (·.1)).Nodup →
      l.map (·.2) = (l.map (·.1)).filterMap fun k => (l.find? (·.1 == k)).map (·.2)
  | [], _ => rfl
  | (a, b) :: l, h => by
    obtain ⟨ha, hl⟩ := List.nodup_cons.1 h
    -- past the head, every key of the tail looks up past it
    have htail : ∀ k ∈ l.map (·.1), (((a, b) :: l).find? (·.1 == k)).map (·.2) =
        (l.find? (·.1 == k)).map (·.2) := by
      intro k hk
      have hne : a ≠ k := fun hak => ha (hak ▸ hk)
      simp [hne]
    have hhead : (((a, b) :: l).find? (·.1 == a)).map (·.2) = some b := by simp
    simp only [List.map_cons, List.filterMap_cons, hhead]
    rw [List.filterMap_congr htail, map_snd_eq_filterMap_find? l hl]

namespace Registry

variable {r : Registry} {key k : DefinitionKey} {d : Definition}

/-- The keys of the definitions, in registration order. -/
def keys (r : Registry) : List DefinitionKey := r.entries.toList.map (·.1)

theorem find?_eq (r : Registry) (k : DefinitionKey) :
    r.find? k = (r.entries.toList.find? (·.1 == k)).map (·.2) := by
  rw [find?, Array.find?_toList]

@[simp] theorem keys_empty : Registry.empty.keys = [] := rfl

theorem mem_keys_of_find? (h : r.find? k = some d) : k ∈ r.keys := by
  rw [find?_eq] at h
  obtain ⟨e, he, hed⟩ := Option.map_eq_some_iff.1 h
  have hk : e.1 = k := by simpa using List.find?_some he
  exact hk ▸ List.mem_map_of_mem (List.mem_of_find?_eq_some he)

theorem find?_eq_none (h : k ∉ r.keys) : r.find? k = none := by
  rw [find?_eq, Option.map_eq_none_iff, List.find?_eq_none]
  intro e he hek
  have hk : e.1 = k := by simpa using hek
  exact h (hk ▸ List.mem_map_of_mem he)

/-- Registering adds the key last, unless it is registered already. -/
theorem keys_insert : (r.insert key d).1.keys = r.keys ++ [key].removeAll r.keys := by
  unfold insert
  split
  · -- the entry replaced is registered under the same key
    rename_i i hi
    obtain ⟨hlt, hkeyi, _⟩ := Array.findIdx?_eq_some_iff_getElem.1 hi
    have hi' : r.entries[i].1 = key := by simpa using hkeyi
    have hmem : key ∈ r.keys := hi' ▸ List.mem_map_of_mem (Array.getElem_mem_toList hlt)
    have hlt' : i < r.keys.length := by simpa [keys] using hlt
    have hget : r.keys[i] = key := by simpa [keys] using hi'
    have hset : r.keys.set i key = r.keys := by
      rw [← hget]
      exact List.set_getElem_self _
    have hnew : [key].removeAll r.keys = [] := by simp [List.removeAll, hmem]
    show (r.entries.set! i (key, d)).toList.map (·.1) = _
    rw [Array.toList_set!, List.map_set, hnew, List.append_nil]
    exact hset
  · rename_i hi
    have hmem : key ∉ r.keys := by
      intro hk
      obtain ⟨e, he, hek⟩ := List.mem_map.1 hk
      have := Array.findIdx?_eq_none_iff.1 hi e (by simpa using he)
      simp [hek] at this
    have hnew : [key].removeAll r.keys = [key] := by simp [List.removeAll, hmem]
    rw [hnew]
    simp [keys]

/-- Registering makes the key find the new definition. -/
theorem find?_insert_self : (r.insert key d).1.find? key = some d := by
  unfold insert
  split
  · rename_i i hi
    obtain ⟨hlt, _, hbefore⟩ := Array.findIdx?_eq_some_iff_getElem.1 hi
    rw [find?_eq, Array.toList_set!, List.find?_set_of_first (by simp) _ i (by simpa using hlt)]
    · rfl
    · intro j hj hl
      simpa using hbefore j hj
  · rename_i hi
    rw [find?_eq, Array.toList_push, List.find?_append, List.find?_eq_none.2]
    · simp
    · intro e he
      simpa using Array.findIdx?_eq_none_iff.1 hi e (by simpa using he)

/-- Registering under one key leaves what the others find. -/
theorem find?_insert_of_ne (h : key ≠ k) : (r.insert key d).1.find? k = r.find? k := by
  unfold insert
  split
  · rename_i i hi
    obtain ⟨_, hkeyi, _⟩ := Array.findIdx?_eq_some_iff_getElem.1 hi
    have hi' : r.entries[i].1 = key := by simpa using hkeyi
    rw [find?_eq, find?_eq, Array.toList_set!, List.find?_set_of_not (by simpa using h)]
    intro hl
    simpa [hi'] using h
  · simp [find?_eq, h]

/-- A helper registered already is handed back, and the registry and the table are left. -/
theorem provide_of_find? {t : NameTable} {unit desired : String} {lines : List String}
    (h : r.find? (.helper desired) = some d) :
    r.provide t unit desired lines = (d.name, r, t, false) := by
  unfold provide
  rw [h]

/-- A helper provided is registered under the name handed back. -/
theorem find?_provide (t : NameTable) (unit desired : String) (lines : List String) :
    ∃ code, (r.provide t unit desired lines).2.1.find? (.helper desired) =
      some ⟨(r.provide t unit desired lines).1, code⟩ := by
  rcases hfind : r.find? (.helper desired) with _ | d
  · unfold provide
    rw [hfind]
    exact ⟨_, find?_insert_self⟩
  · rw [provide_of_find? hfind]
    exact ⟨d.code, hfind⟩

/-- A procedure defined finds its new code. -/
theorem find?_defineProcedure (name code : String) :
    (r.defineProcedure name code).1.find? (.procedure name) = some ⟨name, code⟩ :=
  find?_insert_self

/-- Declaring some variables makes the declaration the line that lists them. -/
theorem find?_declareVariables {names : List String} (h : names ≠ []) :
    (r.declareVariables names).find? .declaredVariables =
      some ⟨"", "var " ++ ", ".intercalate names ++ ";"⟩ := by
  have hnames : names.isEmpty = false := List.isEmpty_eq_false_iff.2 h
  simp only [declareVariables, hnames]
  exact find?_insert_self

/-- In a registry whose keys are distinct, the codes are those the keys find, in order. -/
theorem codes_eq (h : r.keys.Nodup) :
    r.codes = r.keys.filterMap fun k => (r.find? k).map (·.code) := by
  have hfind : ∀ k, (r.find? k).map (·.code) =
      ((r.entries.toList.map fun e => (e.1, e.2.code)).find? (·.1 == k)).map (·.2) := by
    intro k
    rw [find?_eq, List.find?_map, Option.map_map, Option.map_map]
    rfl
  have hkeys : r.keys = (r.entries.toList.map fun e => (e.1, e.2.code)).map (·.1) := by
    simp [keys]
  simp only [hfind]
  rw [hkeys] at h ⊢
  rw [← List.map_snd_eq_filterMap_find? _ h]
  simp [codes]

end Registry

/-- A call on the registry, or on the name table it shares. -/
inductive RegistryCall where
  /-- A helper provided with its lines, re-indented to `unit`. -/
  | provide (unit desired : String) (lines : List String)
  /-- The code of a procedure. -/
  | defineProcedure (name code : String)
  /-- The declaration of variables. -/
  | declareVariables (names : List String)
  /-- A call on the name table alone. -/
  | table (c : NameCall)

namespace RegistryCall

/-- The registry and the name table after a call. -/
def run (st : Registry × NameTable) : RegistryCall → Registry × NameTable
  | provide unit desired lines =>
    ((st.1.provide st.2 unit desired lines).2.1, (st.1.provide st.2 unit desired lines).2.2.1)
  | defineProcedure name code => ((st.1.defineProcedure name code).1, st.2)
  | declareVariables names => (st.1.declareVariables names, st.2)
  | table c => (st.1, (c.run st.2).2)

/-- The key a call registers under; a declaration of no variables registers nothing. -/
def key? : RegistryCall → Option DefinitionKey
  | provide _ desired _ => some (.helper desired)
  | defineProcedure name _ => some (.procedure name)
  | declareVariables names => if names.isEmpty then none else some .declaredVariables
  | table _ => none

/-- The registry and the table after calls made one after another. -/
def runAll (st : Registry × NameTable) (calls : List RegistryCall) : Registry × NameTable :=
  calls.foldl run st

variable {st : Registry × NameTable} {k : DefinitionKey} {d : Definition}

theorem key?_eq_helper {c : RegistryCall} {desired : String} :
    c.key? = some (.helper desired) ↔ ∃ unit lines, c = .provide unit desired lines := by
  cases c <;> simp [key?]

theorem key?_eq_procedure {c : RegistryCall} {name : String} :
    c.key? = some (.procedure name) ↔ ∃ code, c = .defineProcedure name code := by
  cases c <;> simp [key?]

theorem key?_eq_declaredVariables {c : RegistryCall} :
    c.key? = some .declaredVariables ↔ ∃ names, names ≠ [] ∧ c = .declareVariables names := by
  cases c <;> simp [key?]

theorem runAll_cons (c : RegistryCall) (cs : List RegistryCall) :
    runAll st (c :: cs) = runAll (c.run st) cs := rfl

theorem runAll_append (cs cs' : List RegistryCall) :
    runAll st (cs ++ cs') = runAll (runAll st cs) cs' := List.foldl_append

/-- **A call adds its key last unless it is registered**, and no key is dropped or moved. -/
theorem keys_run (c : RegistryCall) :
    (c.run st).1.keys = st.1.keys ++ c.key?.toList.removeAll st.1.keys := by
  cases c with
  | provide unit desired lines =>
    rcases hfind : st.1.find? (.helper desired) with _ | d
    · simp only [run, key?, Registry.provide, hfind]
      exact Registry.keys_insert
    · simp [run, key?, Registry.provide_of_find? hfind, List.removeAll,
        Registry.mem_keys_of_find? hfind]
  | defineProcedure name code => exact Registry.keys_insert
  | declareVariables names =>
    by_cases hnames : names.isEmpty
    · simp [run, key?, Registry.declareVariables, hnames]
    · simp only [run, key?, Registry.declareVariables, hnames]
      exact Registry.keys_insert
  | table c => simp [run, key?]

/-- A call whose key is another leaves what that key finds. -/
theorem find?_run_of_key_ne (c : RegistryCall) (h : c.key? ≠ some k) :
    (c.run st).1.find? k = st.1.find? k := by
  cases c with
  | provide unit desired lines =>
    have hne : DefinitionKey.helper desired ≠ k := fun hk => h (by rw [key?, hk])
    rcases hfind : st.1.find? (.helper desired) with _ | d
    · simp only [run, Registry.provide, hfind]
      exact Registry.find?_insert_of_ne hne
    · simp [run, Registry.provide_of_find? hfind]
  | defineProcedure name code =>
    exact Registry.find?_insert_of_ne fun hk => h (by rw [key?, hk])
  | declareVariables names =>
    by_cases hnames : names.isEmpty
    · simp [run, Registry.declareVariables, hnames]
    · have hne : DefinitionKey.declaredVariables ≠ k := fun hk => h (by simp [key?, hnames, hk])
      simp only [run, Registry.declareVariables, hnames]
      exact Registry.find?_insert_of_ne hne
  | table c => rfl

/-- A registered helper stays as it is, whatever the call. -/
theorem find?_helper_run {desired : String} (c : RegistryCall)
    (h : st.1.find? (.helper desired) = some d) : (c.run st).1.find? (.helper desired) = some d := by
  by_cases hkey : c.key? = some (.helper desired)
  · -- only a call providing the same helper has its key, and it finds it registered
    obtain ⟨unit, lines, rfl⟩ := key?_eq_helper.1 hkey
    simp [run, Registry.provide_of_find? h, h]
  · rw [find?_run_of_key_ne c hkey, h]

/-- The keys of a run: those registered before, then those of the calls not registered yet, each
once, in the order of their first call. -/
theorem keys_runAll (cs : List RegistryCall) :
    (runAll st cs).1.keys = st.1.keys ++ ((cs.filterMap key?).removeAll st.1.keys).eraseDups := by
  induction cs generalizing st with
  | nil => simp [runAll]
  | cons c cs ih =>
    rw [runAll_cons, ih, keys_run]
    rcases hk : c.key? with _ | k
    · simp [hk]
    · by_cases hmem : k ∈ st.1.keys
      · simp [hk, List.removeAll, hmem]
      · -- a new key goes last, and the calls after it no longer add it
        have hnew : [k].removeAll st.1.keys = [k] := by simp [List.removeAll, hmem]
        have hcons : (k :: cs.filterMap key?).removeAll st.1.keys =
            k :: (cs.filterMap key?).removeAll st.1.keys := by
          simp [List.removeAll, hmem]
        have hrest : (cs.filterMap key?).removeAll (st.1.keys ++ [k]) =
            ((cs.filterMap key?).removeAll st.1.keys).filter fun b => !b == k := by
          simp [List.removeAll, List.filter_filter, Bool.beq_eq_decide_eq, Bool.and_comm]
        rw [Option.toList_some, hnew, List.filterMap_cons_some hk, hcons, List.eraseDups_cons,
          ← hrest, List.append_assoc, List.singleton_append]

/-- The keys of a registry stay distinct. -/
theorem keys_nodup_runAll (cs : List RegistryCall) (h : st.1.keys.Nodup) :
    (runAll st cs).1.keys.Nodup := by
  induction cs generalizing st with
  | nil => exact h
  | cons c cs ih =>
    refine ih ?_
    rw [keys_run]
    rcases hk : c.key? with _ | k
    · simpa using h
    · by_cases hmem : k ∈ st.1.keys
      · simpa [List.removeAll, hmem] using h
      · have hnew : [k].removeAll st.1.keys = [k] := by simp [List.removeAll, hmem]
        rw [Option.toList_some, hnew, List.nodup_append]
        exact ⟨h, List.nodup_singleton k, fun a ha b hb hab => hmem (by simp_all)⟩

/-- A key that no call has finds what it found before. -/
theorem find?_runAll_of_key_ne (cs : List RegistryCall) (h : ∀ c ∈ cs, c.key? ≠ some k) :
    (runAll st cs).1.find? k = st.1.find? k := by
  induction cs generalizing st with
  | nil => rfl
  | cons c cs ih =>
    rw [runAll_cons, ih fun c' hc' => h c' (List.mem_cons_of_mem c hc'),
      find?_run_of_key_ne c (h c List.mem_cons_self)]

/-- A registered helper stays as it is through any run. -/
theorem find?_helper_runAll {desired : String} (cs : List RegistryCall)
    (h : st.1.find? (.helper desired) = some d) :
    (runAll st cs).1.find? (.helper desired) = some d := by
  induction cs generalizing st with
  | nil => exact h
  | cons c cs ih => exact ih (find?_helper_run c h)

end RegistryCall

open RegistryCall in
/-- **The registry deduplicates and keeps order.**  After any calls from the empty registry, the
keys are those of the calls, each once, in the order of their first call, and the codes are those
the keys find, in that order.  A helper keeps the name and code of its first registration: every
call that provides it, and every later request for it, whatever its lines and unit, hands that
name back and changes neither the registry nor the table.  A procedure keeps the code of its last
definition, and the variables the declaration of the last call that declares some. -/
theorem registry_keeps_first_registrations (t : NameTable) (calls : List RegistryCall) :
    let final := runAll (Registry.empty, t) calls
    final.1.keys = (calls.filterMap key?).eraseDups ∧
      final.1.codes = final.1.keys.filterMap (fun k => (final.1.find? k).map (·.code)) ∧
      ∀ pre c later, calls = pre ++ c :: later →
        let before := runAll (Registry.empty, t) pre
        (∀ unit desired lines, c = .provide unit desired lines →
          final.1.find? (.helper desired) = (c.run before).1.find? (.helper desired) ∧
            ∀ unit' lines', final.1.provide final.2 unit' desired lines' =
              ((before.1.provide before.2 unit desired lines).1, final.1, final.2, false)) ∧
        (∀ name code, c = .defineProcedure name code →
          (∀ code', .defineProcedure name code' ∉ later) →
          final.1.find? (.procedure name) = some ⟨name, code⟩) ∧
        (∀ names, c = .declareVariables names → names ≠ [] →
          (∀ names', names' ≠ [] → .declareVariables names' ∉ later) →
          final.1.find? .declaredVariables = some ⟨"", "var " ++ ", ".intercalate names ++ ";"⟩) := by
  intro final
  have hkeys : final.1.keys = (calls.filterMap key?).eraseDups := by
    simp [final, keys_runAll]
  have hnodup : final.1.keys.Nodup := keys_nodup_runAll calls List.nodup_nil
  refine ⟨hkeys, Registry.codes_eq hnodup, fun pre c later hcalls => ?_⟩
  intro before
  have hfinal : final = runAll (c.run before) later := by
    simp only [final, before, hcalls, runAll_append, runAll_cons]
  refine ⟨fun unit desired lines hc => ?_, fun name code hc hlater => ?_,
    fun names hc hnames hlater => ?_⟩
  · -- the helper is registered once `c` has run, and stays so
    obtain ⟨code, hfind⟩ := Registry.find?_provide (r := before.1) before.2 unit desired lines
    have hafter : (c.run before).1.find? (.helper desired) =
        some ⟨(before.1.provide before.2 unit desired lines).1, code⟩ := by
      rw [hc]
      exact hfind
    have hkept : final.1.find? (.helper desired) =
        some ⟨(before.1.provide before.2 unit desired lines).1, code⟩ := by
      rw [hfinal]
      exact find?_helper_runAll later hafter
    exact ⟨hkept.trans hafter.symm, fun unit' lines' => Registry.provide_of_find? hkept⟩
  · -- no later call has the procedure's key
    have hkey : ∀ c' ∈ later, c'.key? ≠ some (.procedure name) := fun c' hc' hkey => by
      obtain ⟨code', rfl⟩ := key?_eq_procedure.1 hkey
      exact hlater code' hc'
    rw [hfinal, find?_runAll_of_key_ne later hkey, hc]
    exact Registry.find?_defineProcedure name code
  · have hkey : ∀ c' ∈ later, c'.key? ≠ some .declaredVariables := fun c' hc' hkey => by
      obtain ⟨names', hnames', rfl⟩ := key?_eq_declaredVariables.1 hkey
      exact hlater names' hnames' hc'
    rw [hfinal, find?_runAll_of_key_ne later hkey, hc]
    exact Registry.find?_declareVariables hnames

end BlockScribe
