import CfsEds.Osal.Tasks

/-!
# Names of objects

`OS_ObjectIdAllocateNew` refuses a name that an object of the type has. The name of the new
object is written later by `OS_OBJECT_INIT`, when the table is not locked any more, so a second
task can pass the check for the same name in between. Names are unique as long as that does
not happen, and as long as the name that is written is the one that was looked for (for files
and directories none is looked for).
-/

namespace CfsEds.Osal

open Function

section Names

variable {cfg : OsConfig} {ty : Nat} {s s' : Sys} {e : Event} {a b i : Nat} {o : Outcome}
  {token : Token} {name : List Char}

/-- A record that is in use has the name. -/
def Sys.HasName (s : Sys) (i : Nat) (name : List Char) : Prop :=
  objectIdDefined (s.activeId i) = true ∧ (s.table.records i).nameEntry = some name

/-- A task has passed the check for a name, and has not written it yet. -/
def Sys.Pending (s : Sys) (a : Nat) (name : List Char) : Prop :=
  ∃ token, s.phase a = .creating token (some name) ∧
    (s.table.records token.objIdx).nameEntry = none

/-- Names are unique, also with the ones that are about to be written. -/
structure Named (cfg : OsConfig) (ty : Nat) (s : Sys) : Prop where
  unique : ∀ i j name, s.HasName i name → s.HasName j name → i = j
  pending : ∀ a name, s.Pending a name → (∀ i, ¬s.HasName i name) ∧
    ∀ b, s.Pending b name → b = a
  checked : ∀ a token check, s.phase a = .creating token check →
    (s.table.records token.objIdx).nameEntry = none ∨
      (s.table.records token.objIdx).nameEntry = check
  inTable : ∀ i, objectIdDefined (s.activeId i) = true → i < cfg.getMaxForObjectType ty

/-- No name is looked for while another task is about to write it, and the name that is
written is the one looked for. -/
def Orderly (s : Sys) : Event → Prop
  | .allocateNew _ (some name) _ _ => ∀ b, ¬s.Pending b name
  | .initName a name => ∀ token check, s.phase a = .creating token check → check = some name
  | _ => True

namespace Named

theorem init (n : Nat) : Named cfg ty (Sys.init n) := by
  have hundefined : ∀ i, objectIdDefined ((Sys.init n).activeId i) = false := fun _ => rfl
  refine ⟨?_, ?_, ?_, ?_⟩
  · intro i j name hi
    exact absurd hi.1 (by rw [hundefined]; nofun)
  · rintro a name ⟨token, hphase, -⟩
    rw [phase_init] at hphase
    cases hphase
  · intro a token check hphase
    rw [phase_init] at hphase
    cases hphase
  · intro i hi
    exact absurd hi (by rw [hundefined]; nofun)

/-- A step that writes no name, takes no free record into use and does not start a creation. -/
theorem keeps (h : Named cfg ty s)
    (hnames : ∀ i, (s'.table.records i).nameEntry = (s.table.records i).nameEntry)
    (hdefined : ∀ i, objectIdDefined (s'.activeId i) = true → objectIdDefined (s.activeId i) = true)
    (hphases : ∀ a token check, s'.phase a = .creating token check →
      s.phase a = .creating token check) : Named cfg ty s' := by
  have hhas : ∀ i name, s'.HasName i name → s.HasName i name := by
    rintro i name ⟨hid, hname⟩
    exact ⟨hdefined i hid, (hnames i).symm.trans hname⟩
  have hpending : ∀ a name, s'.Pending a name → s.Pending a name := by
    rintro a name ⟨token, hphase, hname⟩
    exact ⟨token, hphases a token _ hphase, (hnames _).symm.trans hname⟩
  refine ⟨?_, ?_, ?_, ?_⟩
  · intro i j name hi hj
    exact h.unique i j name (hhas i name hi) (hhas j name hj)
  · intro a name ha
    obtain ⟨hfree, halone⟩ := h.pending a name (hpending a name ha)
    exact ⟨fun i hi => hfree i (hhas i name hi), fun b hb => halone b (hpending b name hb)⟩
  · intro a token check hphase
    rw [hnames]
    exact h.checked a token check (hphases a token check hphase)
  · exact fun i hi => h.inTable i (hdefined i hi)

end Named

/-- A step of a task that is not creating an object afterwards. -/
theorem creating_next {p : Phase} {T : Table} {l : Option Nat} (ha : a < s.tasks.length)
    (hp : ∀ token check, p ≠ .creating token check) (b : Nat) (token : Token)
    (check : Option (List Char)) (h : (s.next a p T l).phase b = .creating token check) :
    s.phase b = .creating token check := by
  by_cases hba : b = a
  · rw [hba, phase_next_self ha] at h
    exact absurd h (hp token check)
  · rw [phase_next_of_ne hba] at h
    exact h

theorem nameEntry_addReference (token : Token) (T : Table) (j : Nat) :
    ((addReference token T).records j).nameEntry = (T.records j).nameEntry := by
  unfold addReference
  split
  · rfl
  · exact T.modifyRecord_field Record.nameEntry (fun _ => by rfl) j

theorem nameEntry_setId (T : Table) (i : Nat) (id : ObjId) (j : Nat) :
    ((T.setId i id).records j).nameEntry = (T.records j).nameEntry :=
  T.modifyRecord_field Record.nameEntry (fun _ => by rfl) j

theorem nameEntry_finishRecord (token : Token) (finalId : Option ObjId) (T : Table) (j : Nat) :
    ((finishRecord token finalId T).records j).nameEntry = (T.records j).nameEntry :=
  T.modifyRecord_field Record.nameEntry (fun _ => by rfl) j

/-- The ID of a record that is in use is overwritten. -/
theorem defined_setId (hid : objectIdDefined (s.activeId i) = true) (id : ObjId) (j : Nat)
    (h : objectIdDefined ((s.table.setId i id).records j).activeId = true) :
    objectIdDefined (s.activeId j) = true := by
  by_cases hj : j = i
  · rw [hj]
    exact hid
  · rw [s.table.setId_of_ne _ hj] at h
    exact h

theorem defined_of_reserves (hres : Reservations cfg ty s) (h : (s.phase a).Reserves i) :
    objectIdDefined (s.activeId i) = true := by
  rw [hres.reserved a i h]
  rfl

/-- A record whose ID is the one expected is in use. -/
theorem defined_of_asks {expected : ObjId} {search : Bool} (hres : Reservations cfg ty s)
    (hasks : Asks cfg ty s a token expected search) (hid : s.activeId token.objIdx = expected) :
    objectIdDefined (s.activeId token.objIdx) = true := by
  obtain ⟨husable, hexpected⟩ := hres.asks hasks
  rcases hexpected with rfl | ⟨-, -, hmine⟩
  · rw [hid]
    exact objectIdDefined_of_isValid husable.valid
  · exact defined_of_reserves hres hmine

/-- A record for which a token is given back with an ID was in use. -/
theorem defined_finishRecord {finalId : Option ObjId} (hres : Reservations cfg ty s)
    (hfinishes : Finishes ty s a token finalId) (j : Nat)
    (h : objectIdDefined ((finishRecord token finalId s.table).records j).activeId = true) :
    objectIdDefined (s.activeId j) = true := by
  by_cases hj : j = token.objIdx
  · subst hj
    obtain ⟨htoken, husable⟩ := hres.finishes_phase hfinishes
    by_cases hexclusive : token.lockMode = .exclusive
    · exact defined_of_reserves hres (.inl ⟨token, htoken, hexclusive, rfl⟩)
    rcases hfinishes with ⟨hphase, rfl⟩ | ⟨hphase, -, hmode⟩ | ⟨⟨check, hphase⟩, -⟩
    · rw [finishRecord, Table.modifyRecord_self] at h
      rw [if_neg hexclusive] at h
      exact h
    · rw [(hres.locked a token hphase (hmode.resolve_left hexclusive).1).2]
      exact objectIdDefined_of_isValid husable.valid
    · have hproper := hres.proper a
      rw [hphase] at hproper
      exact absurd hproper.2 hexclusive
  · rw [finishRecord, s.table.modifyRecord_of_ne _ hj] at h
    exact h

/-- The check for a name finds every record that has it. -/
theorem not_hasName_of_free (h : Named cfg ty s)
    (hname : nameIsTaken (cfg.getMaxForObjectType ty) (some name) s.table (initToken .exclusive ty) =
      false) (i : Nat) : ¬s.HasName i name := by
  rintro ⟨hid, hentry⟩
  have hi := h.inTable i hid
  unfold nameIsTaken findNextMatch at hname
  dsimp only [initToken] at hname
  rw [show (2 ^ 32 - 1 + 1) % 2 ^ 32 = 0 from rfl] at hname
  -- the search goes over the whole table
  cases hfind : (List.range' 0 (cfg.getMaxForObjectType ty - 0)).find? fun i =>
      objectIdDefined (s.table.records i).activeId && objectNameMatch name i (s.table.records i) with
  | some j =>
    rw [hfind] at hname
    cases hname
  | none =>
    rw [List.find?_eq_none] at hfind
    refine hfind i (by rw [List.mem_range'_1]; omega) ?_
    simp only [Bool.and_eq_true, objectNameMatch, beq_iff_eq]
    exact ⟨hid, hentry⟩

/-- The check for a name only objects to a record that has it. -/
theorem hasName_of_taken
    (hname : nameIsTaken (cfg.getMaxForObjectType ty) (some name) s.table (initToken .exclusive ty) =
      true) : ∃ i, i < cfg.getMaxForObjectType ty ∧ s.HasName i name := by
  unfold nameIsTaken at hname
  rw [beq_iff_eq] at hname
  obtain ⟨-, -, -, hlt, hmatch, hdefined⟩ := findNextMatch_success hname
  refine ⟨_, hlt, hdefined, ?_⟩
  simpa [objectNameMatch] using hmatch

namespace Named

/-- Records of tasks that create objects are not free, and no two tasks create the same. -/
theorem creating_ne (hres : Reservations cfg ty s) {check : Option (List Char)}
    (hphase : s.phase b = .creating token check)
    (hundefined : objectIdDefined (s.activeId i) = false) : token.objIdx ≠ i := by
  rintro rfl
  have hproper := hres.proper b
  rw [hphase] at hproper
  refine hres.none_of_undefined hundefined b ?_
  rw [hphase, reserves_creating]
  exact ⟨hproper.2, rfl⟩

/-- A record is taken into use without a name. -/
theorem creates (h : Named cfg ty s) (hres : Reservations cfg ty s) (ha : a < s.tasks.length)
    {objId objId' self : ObjId} {count : BitVec 16} {l : Option Nat} {p : Phase}
    (hi : i < cfg.getMaxForObjectType ty)
    (hundefined : objectIdDefined (s.activeId i) = false)
    (hp : ∀ token check, p = .creating token check → token.objIdx = i ∧
      ∀ name, check = some name → (∀ j, ¬s.HasName j name) ∧ ∀ b, ¬s.Pending b name) :
    Named cfg ty (s.next a p ⟨update s.table.records i ⟨none, objId, self, count⟩, objId'⟩ l) := by
  generalize hs' : s.next a p ⟨update s.table.records i ⟨none, objId, self, count⟩, objId'⟩ l = s'
  have hself : (s'.table.records i).nameEntry = none := by
    rw [← hs']
    change (update s.table.records i ⟨none, objId, self, count⟩ i).nameEntry = none
    rw [update_self]
  have hother : ∀ j, j ≠ i → s'.table.records j = s.table.records j := by
    intro j hj
    rw [← hs']
    exact update_of_ne hj ..
  have hhas : ∀ j name, s'.HasName j name → s.HasName j name := by
    rintro j name ⟨hid, hname⟩
    have hj : j ≠ i := by
      rintro rfl
      rw [hself] at hname
      cases hname
    unfold Sys.activeId at hid
    rw [hother j hj] at hid hname
    exact ⟨hid, hname⟩
  -- a name that is about to be written is that of this task, or was so before
  have hpending : ∀ b name, s'.Pending b name →
      (b = a ∧ (∀ j, ¬s.HasName j name) ∧ ∀ c, ¬s.Pending c name) ∨ (b ≠ a ∧ s.Pending b name) := by
    rintro b name ⟨token, hphase, hname⟩
    by_cases hba : b = a
    · rw [hba, ← hs', phase_next_self ha] at hphase
      exact .inl ⟨hba, (hp token _ hphase).2 name rfl⟩
    · rw [← hs', phase_next_of_ne hba] at hphase
      rw [hother _ (creating_ne hres hphase hundefined)] at hname
      exact .inr ⟨hba, token, hphase, hname⟩
  refine ⟨?_, ?_, ?_, ?_⟩
  · intro j k name hj hk
    exact h.unique j k name (hhas j name hj) (hhas k name hk)
  · intro b name hb
    rcases hpending b name hb with ⟨rfl, hfree, hnone⟩ | ⟨hba, hb'⟩
    · refine ⟨fun j hj => hfree j (hhas j name hj), fun c hc => ?_⟩
      rcases hpending c name hc with ⟨hcb, -⟩ | ⟨-, hc'⟩
      · exact hcb
      · exact absurd hc' (hnone c)
    obtain ⟨hfree, halone⟩ := h.pending b name hb'
    refine ⟨fun j hj => hfree j (hhas j name hj), fun c hc => ?_⟩
    rcases hpending c name hc with ⟨-, -, hnone⟩ | ⟨-, hc'⟩
    · exact absurd hb' (hnone b)
    · exact halone c hc'
  · intro b token check hphase
    by_cases hba : b = a
    · rw [hba, ← hs', phase_next_self ha] at hphase
      rw [(hp token check hphase).1]
      exact .inl hself
    · rw [← hs', phase_next_of_ne hba] at hphase
      rw [hother _ (creating_ne hres hphase hundefined)]
      exact h.checked b token check hphase
  · intro j hj
    by_cases hji : j = i
    · rw [hji]
      exact hi
    · unfold Sys.activeId at hj
      rw [hother j hji] at hj
      exact h.inTable j hj

/-- The name that was looked for is written. -/
theorem names (h : Named cfg ty s) (hres : Reservations cfg ty s)
    (hphase : s.phase a = .creating token (some name)) :
    Named cfg ty { s with table := s.table.modifyRecord token.objIdx fun obj =>
      { obj with nameEntry := some name } } := by
  generalize hs' : ({ s with table := s.table.modifyRecord token.objIdx fun obj =>
      { obj with nameEntry := some name } } : Sys) = s'
  have hself : (s'.table.records token.objIdx).nameEntry = some name := by
    rw [← hs']
    rw [Table.modifyRecord_self]
  have hother : ∀ j, j ≠ token.objIdx → s'.table.records j = s.table.records j := by
    intro j hj
    rw [← hs']
    rw [Table.modifyRecord_of_ne _ _ hj]
  have hids : ∀ j, s'.activeId j = s.activeId j := by
    intro j
    by_cases hj : j = token.objIdx
    · rw [hj, ← hs']
      dsimp only [Sys.activeId]
      rw [Table.modifyRecord_self]
    · exact congrArg Record.activeId (hother j hj)
  have hphases : ∀ b, s'.phase b = s.phase b := by
    rw [← hs']
    exact fun _ => rfl
  have hreserves : (s.phase a).Reserves token.objIdx := by
    have hproper := hres.proper a
    rw [hphase] at hproper ⊢
    exact reserves_creating.mpr ⟨hproper.2, rfl⟩
  -- before, nobody else had the name or was about to write it
  have hfree : ∀ j, s.HasName j name → j = token.objIdx := by
    intro j hj
    rcases h.checked a token _ hphase with hnone | hsome
    · exact absurd hj ((h.pending a name ⟨token, hphase, hnone⟩).1 j)
    · exact h.unique j _ name hj ⟨defined_of_reserves hres hreserves, hsome⟩
  have halone : ∀ b, b ≠ a → ¬s.Pending b name := by
    intro b hba hb
    rcases h.checked a token _ hphase with hnone | hsome
    · exact hba ((h.pending a name ⟨token, hphase, hnone⟩).2 b hb)
    · exact (h.pending b name hb).1 _ ⟨defined_of_reserves hres hreserves, hsome⟩
  have hhas : ∀ j name', s'.HasName j name' →
      (j = token.objIdx ∧ name' = name) ∨ (j ≠ token.objIdx ∧ s.HasName j name') := by
    rintro j name' ⟨hid, hname⟩
    by_cases hj : j = token.objIdx
    · rw [hj, hself] at hname
      exact .inl ⟨hj, (Option.some.inj hname).symm⟩
    · rw [hids] at hid
      rw [hother j hj] at hname
      exact .inr ⟨hj, hid, hname⟩
  have hpending : ∀ b name', s'.Pending b name' → b ≠ a ∧ s.Pending b name' := by
    rintro b name' ⟨token', hphase', hname⟩
    rw [hphases] at hphase'
    have hne : token'.objIdx ≠ token.objIdx := by
      intro heq
      rw [heq, hself] at hname
      cases hname
    rw [hother _ hne] at hname
    refine ⟨?_, token', hphase', hname⟩
    rintro rfl
    cases hphase.symm.trans hphase'
    exact hne rfl
  refine ⟨?_, ?_, ?_, ?_⟩
  · intro j k name' hj hk
    rcases hhas j name' hj with ⟨hj', rfl⟩ | ⟨hj', hj⟩
    · rcases hhas k name' hk with ⟨hk', -⟩ | ⟨-, hk⟩
      · rw [hj', hk']
      · rw [hj', hfree k hk]
    · rcases hhas k name' hk with ⟨hk', rfl⟩ | ⟨-, hk⟩
      · exact absurd (hfree j hj) hj'
      · exact h.unique j k name' hj hk
  · intro b name' hb
    obtain ⟨hba, hb'⟩ := hpending b name' hb
    obtain ⟨hnone, honly⟩ := h.pending b name' hb'
    refine ⟨?_, fun c hc => honly c (hpending c name' hc).2⟩
    intro j hj
    rcases hhas j name' hj with ⟨-, rfl⟩ | ⟨-, hj⟩
    · exact halone b hba hb'
    · exact hnone j hj
  · intro b token' check hphase'
    rw [hphases] at hphase'
    by_cases hba : b = a
    · subst hba
      cases hphase.symm.trans hphase'
      exact .inr hself
    -- another task creates another object
    have hne : token'.objIdx ≠ token.objIdx := by
      intro heq
      refine hba (hres.unique b a token.objIdx ?_ hreserves)
      have hproper := hres.proper b
      rw [hphase'] at hproper ⊢
      exact reserves_creating.mpr ⟨hproper.2, heq⟩
    rw [hother _ hne]
    exact h.checked b token' check hphase'
  · intro j hj
    rw [hids] at hj
    exact h.inTable j hj

/-- Names stay unique in an orderly step. -/
theorem move (h : Named cfg ty s) (hres : Reservations cfg ty s) (ha : a < s.tasks.length)
    (horderly : Orderly s e) (hmove : Move cfg ty s e a o s') : Named cfg ty s' := by
  cases hmove with
  | refused => exact h
  | granted search hfree hasks hpass =>
    obtain ⟨hid, hcase⟩ := convertPass_matched hpass
    refine h.keeps ?_ ?_ (creating_next ha nofun)
    · intro i
      refine (nameEntry_addReference _ _ i).trans ?_
      rcases hcase with ⟨-, rfl⟩ | ⟨-, -, rfl⟩
      · rfl
      · exact nameEntry_setId ..
    · intro i hi
      unfold Sys.activeId Sys.next at hi
      rw [activeId_addReference] at hi
      rcases hcase with ⟨-, rfl⟩ | ⟨-, -, rfl⟩
      · exact hi
      · exact defined_setId (defined_of_asks hres hasks hid) _ i hi
  | waits passes search hfree hasks hpass =>
    rcases convertPass_contended hpass with ⟨-, hid, -, rfl, rfl⟩ | ⟨-, -, rfl, rfl⟩
    · exact h.keeps (fun i => nameEntry_setId ..)
        (fun i hi => defined_setId (defined_of_asks hres hasks hid) _ i hi) (creating_next ha nofun)
    · exact h.keeps (fun i => rfl) (fun i hi => hi) (creating_next ha nofun)
  | @fails token expected expected' T status search hfree hasks hpass =>
    have hphase : ∀ token check,
        (if search then Phase.stuck else Phase.idle) ≠ .creating token check := by
      intro token check
      cases search <;> nofun
    rcases hres.fails_table hasks hpass with ⟨-, htable⟩ | ⟨hmine, htable⟩
    · unfold giveUp
      rw [htable]
      exact h.keeps (fun i => rfl) (fun i hi => hi) (creating_next ha hphase)
    unfold giveUp
    rw [htable]
    exact h.keeps (fun i => nameEntry_setId ..)
      (fun i hi => defined_setId (defined_of_reserves hres hmine) _ i hi)
      (creating_next ha hphase)
  | leaks =>
    exact h.keeps (fun i => rfl) (fun i hi => hi) (creating_next ha nofun)
  | finishes hlock hfinishes =>
    exact h.keeps (fun i => nameEntry_finishRecord ..)
      (fun i hi => defined_finishRecord hres hfinishes i hi) (creating_next ha nofun)
  | @creates i objId self handler check hevent hfree hidle hi hundefined hvalid hindex hname =>
    refine h.creates hres ha hi hundefined ?_
    rintro token check' hphase
    cases hphase
    refine ⟨rfl, ?_⟩
    rintro name rfl
    subst hevent
    exact ⟨not_hasName_of_free h hname, horderly⟩
  | @blocks i objId self hfree hidle hi hundefined =>
    exact h.creates hres ha hi hundefined nofun
  | @names token check name hevent hcreating =>
    subst hevent
    rw [horderly token check hcreating] at hcreating
    exact h.names hres hcreating

end Named

/-- Runs with orderly steps only. -/
inductive OrderlyRun (cfg : OsConfig) (ty n : Nat) : List Event → Sys → Prop where
  | start : OrderlyRun cfg ty n [] (Sys.init n)
  | next {es : List Event} {e : Event} {s s' : Sys} {o : Outcome} (hrun : OrderlyRun cfg ty n es s)
      (horderly : Orderly s e) (hstep : step cfg ty s e = some (o, s')) :
      OrderlyRun cfg ty n (es ++ [e]) s'

theorem OrderlyRun.run {n : Nat} {es : List Event} (h : OrderlyRun cfg ty n es s) :
    Run cfg ty n es s := by
  induction h with
  | start => exact .start
  | next _ _ hstep ih => exact .next ih hstep

theorem Named.run {n : Nat} {es : List Event} (hrun : OrderlyRun cfg ty n es s) : Named cfg ty s := by
  induction hrun with
  | start => exact Named.init n
  | next hrun horderly hstep ih =>
    obtain ⟨ha, hmove⟩ := step_moves hstep
    exact ih.move (Reservations.run hrun.run) ha horderly hmove

theorem findNextFree_status {maxId : Nat} {self : ObjId} {T : Table} {status : Status}
    (h : (findNextFree maxId self T token).1 = status) : status ≠ .nameTaken := by
  rw [← h]
  unfold findNextFree
  split
  · nofun
  · split <;> nofun

theorem allocateStep_not_failed (s : Sys) (a : Nat) (check : Option (List Char))
    (handler : OsEvent → ObjId → Status) (token : Token) (T : Table) (status : Status) :
    (allocateStep s a check handler token T).1 ≠ .failed status := by
  unfold allocateStep
  split <;> nofun

/-- No two objects have the same name if every step was orderly, and in every run a name is
only refused if an object has it. -/
theorem names_unique_of_orderly (cfg : OsConfig) (ty n : Nat) (es : List Event) (s : Sys) :
    (OrderlyRun cfg ty n es s → ∀ i j name, s.HasName i name → s.HasName j name → i = j) ∧
    (Run cfg ty n es s → ∀ a name self handler s',
      step cfg ty s (.allocateNew a (some name) self handler) = some (.failed .nameTaken, s') →
      ∃ i, i < cfg.getMaxForObjectType ty ∧ s.HasName i name) := by
  refine ⟨fun hrun => (Named.run hrun).unique, ?_⟩
  intro _ a name self handler s' hstep
  rw [step] at hstep
  split at hstep
  · split at hstep
    · rename_i htaken
      exact hasName_of_taken htaken
    -- what else may go wrong has a status of its own
    exfalso
    cases hfind : findNextFree (cfg.getMaxForObjectType ty) self s.table
        (initToken .exclusive ty) with
    | mk status found =>
      rw [hfind] at hstep
      have hstatus := findNextFree_status (congrArg Prod.fst hfind)
      cases status with
      | success =>
        have hfails := allocateStep_not_failed s a (some name) handler found.1 found.2 .nameTaken
        exact hfails (congrArg Prod.fst (Option.some.inj hstep))
      | nameTaken => exact absurd rfl hstatus
      | _ => cases hstep
  · cases hstep

end Names

/-- A task creates a mutex and has written its name; another task that wants to create one
with the same name is refused. -/
theorem names_unique_mutex : ∃ es s s', OrderlyRun smallOs 5 2 es s ∧ s.HasName 1 ['M'] ∧
    step smallOs 5 s (.allocateNew 1 (some ['M']) 0 fun _ _ => .success) =
      some (.failed .nameTaken, s') ∧
    (∃ i, i < 2 ∧ s.HasName i ['M']) ∧ ∀ i, s.HasName i ['M'] → i = 1 := by
  obtain ⟨T, hallocate, hrecord⟩ := allocate_first (.inl rfl) (by decide : 0 < 2) (some ['M'])
  have horderly : Orderly (Sys.init 2) (.allocateNew 0 (some ['M']) 0 fun _ _ => .success) := by
    rintro b ⟨token, hphase, -⟩
    rw [phase_init] at hphase
    cases hphase
  have hrun := OrderlyRun.next .start horderly hallocate
  generalize hs₁ : (Sys.init 2).next 0 (.creating (userToken 5 .exclusive) (some ['M'])) T none = s₁
    at hrun
  have hphase : s₁.phase 0 = .creating (userToken 5 .exclusive) (some ['M']) := by
    rw [← hs₁]
    exact phase_next_self (by decide)
  have hstep : step smallOs 5 s₁ (.initName 0 ['M']) = some (.done, { s₁ with
      table := s₁.table.modifyRecord 1 fun obj => { obj with nameEntry := some ['M'] } }) := by
    rw [step, hphase]
    rfl
  have horderly₁ : Orderly s₁ (.initName 0 ['M']) := by
    intro token check hphase'
    cases hphase.symm.trans hphase'
    rfl
  have hrun₁ := hrun.next horderly₁ hstep
  generalize hs₂ : { s₁ with table := s₁.table.modifyRecord 1 fun obj =>
    { obj with nameEntry := some ['M'] } } = s₂ at hrun₁
  have hname : s₂.HasName 1 ['M'] := by
    unfold Sys.HasName Sys.activeId
    rw [← hs₂, Table.modifyRecord_self, ← hs₁]
    refine ⟨?_, rfl⟩
    change objectIdDefined (T.records 1).activeId = true
    rw [hrecord]
    rfl
  have htaken : nameIsTaken (smallOs.getMaxForObjectType 5) (some ['M']) s₂.table
      (initToken .exclusive 5) = true := by
    by_contra hfree
    exact not_hasName_of_free (Named.run hrun₁) (Bool.eq_false_of_not_eq_true hfree) 1 hname
  have hrefused : step smallOs 5 s₂ (.allocateNew 1 (some ['M']) 0 fun _ _ => .success) =
      some (.failed .nameTaken, s₂) := by
    rw [step, if_pos, if_pos htaken]
    rw [← hs₂, ← hs₁]
    exact ⟨rfl, Nat.one_lt_two, rfl⟩
  obtain ⟨hunique, hrefuses⟩ := names_unique_of_orderly smallOs 5 2
    ([.allocateNew 0 (some ['M']) 0 fun _ _ => .success] ++ [.initName 0 ['M']]) s₂
  exact ⟨_, s₂, s₂, hrun₁, hname, hrefused, hrefuses hrun₁.run 1 ['M'] 0 _ s₂ hrefused,
    fun i hi => hunique hrun₁ i 1 ['M'] hi hname⟩

/-- Two tasks create a mutex each: both look for the name before one of them writes it. -/
def racingCreates : List Event :=
  [.allocateNew 0 (some ['M']) 0 fun _ _ => .success,
    .allocateNew 1 (some ['M']) 0 fun _ _ => .success,
    .initName 0 ['M'], .finalizeNew 0 .success, .initName 1 ['M'], .finalizeNew 1 .success]

theorem names_not_unique : ∃ s, Run smallOs 5 2 racingCreates s ∧
    s.activeId 0 = 0x00050002 ∧ s.activeId 1 = 0x00050001 ∧
    s.HasName 0 ['M'] ∧ s.HasName 1 ['M'] := by
  have hexec : (exec smallOs 5 (Sys.init 2) racingCreates).map
      (fun s => (s.table.records 0, s.table.records 1)) =
        some (⟨some ['M'], 0x00050002, 0, 0⟩, ⟨some ['M'], 0x00050001, 0, 0⟩) := by
    decide +kernel
  obtain ⟨s, hs, hrecords⟩ := Option.map_eq_some_iff.mp hexec
  obtain ⟨h₀, h₁⟩ := Prod.mk.inj hrecords
  refine ⟨s, Run.exec .start hs, ?_⟩
  unfold Sys.HasName Sys.activeId
  rw [h₀, h₁]
  exact ⟨rfl, rfl, ⟨rfl, rfl⟩, ⟨rfl, rfl⟩⟩

end CfsEds.Osal
