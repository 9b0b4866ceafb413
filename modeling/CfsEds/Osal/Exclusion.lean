import CfsEds.Osal.Tasks

/-!
# Exclusive use of an object

What `OS_ObjectIdConvertToken` promises: a token in mode `EXCLUSIVE` is the only one for its
record, and a task that does not get one puts the ID back. Nothing enforces the first part but
the reference count: exclusive use is granted when it is zero.

`Counts` therefore says that the count of every record is the number of tokens that tasks have
for it (`counted`), that beside an exclusive token there is no other (`alone`), and that a
record with the undefined ID has none (`free`). A pass that grants exclusive use finds the
count zero, hence no tokens by `counted`, and writes the reserved ID; a later pass for another
task does not find the ID it expects and gets nothing until the record is finished, so `alone`
is kept (`granted`). The one step that frees a record without an exclusive token is the end of
a task of the operating system, which keeps the table locked from its lookup on; that there is
no other token then takes the lock and the modes used for tasks (`tokensOn_of_task`). `move`
has a case for each kind of `Move`, and `Counts.run` follows by induction.

The assumption is `LightRun`: the count has 16 bits and is not checked when it grows, so each
step is taken with less than 65535 tokens on every record. It holds of every run of less than
65535 tasks (`Run.light`). Without it, 65536 tokens make the count zero again, and the record
is given away beside them (`exclusive_beside_users`).

That attempts put the ID back does not rest on the counts: `exclusiveStep` has it of every step
of a state whose reservations are in order, as they are in every run.
-/

namespace CfsEds.Osal

open CfsEds.Lib.RefCount List Function

variable {es : List Event} {n : Nat} {expected' : ObjId} {q : Phase}

section Counts

variable {cfg : OsConfig} {ty : Nat} {s s' : Sys} {e : Event} {a b i : Nat} {o : Outcome}
  {token : Token} {expected : ObjId} {search : Bool} {p : Phase} {T : Table} {l : Option Nat}

/-- The reference counts are right, and exclusive use is by one token only. -/
structure Counts (s : Sys) : Prop where
  counted : ∀ i, (s.table.records i).refcount.toNat = s.tokens i
  alone : ∀ a i, (s.phase a).ExclusiveOn i → s.tokens i = 1
  free : ∀ i, objectIdDefined (s.activeId i) = false → s.tokens i = 0

theorem tokens_next (ha : a < s.tasks.length) (j : Nat) :
    (s.next a p T l).tokens j + (s.phase a).tokensOn j = s.tokens j + p.tokensOn j :=
  tally_modify ha

theorem tokensOn_of_token (h : q.token? = some token) (j : Nat) :
    q.tokensOn j = if token.objIdx = j then 1 else 0 := by
  unfold Phase.tokensOn
  rw [h]

theorem tokensOn_of_none (h : q.token? = none) (j : Nat) : q.tokensOn j = 0 := by
  unfold Phase.tokensOn
  rw [h]

/-- The tokens of two tasks are both counted. -/
theorem two_le_tokens (hab : a ≠ b) (ha : (s.phase a).tokensOn i = 1)
    (hb : (s.phase b).tokensOn i = 1) : 2 ≤ s.tokens i := by
  have hlt : ∀ c, (s.phase c).tokensOn i = 1 → c < s.tasks.length := by
    intro c hc
    apply lt_length_of_phase
    intro hidle
    rw [hidle] at hc
    cases hc
  have hsum : (s.phase a).tokensOn i + (s.phase b).tokensOn i ≤ s.tokens i :=
    add_le_tally (hlt a ha) (hlt b hb) hab
  omega

theorem tokens_eq_zero (h : ∀ a, (s.phase a).tokensOn i = 0) : s.tokens i = 0 := by
  apply tally_eq_zero
  intro q hq
  obtain ⟨a, ha, rfl⟩ := getElem_of_mem hq
  have hphase : s.phase a = s.tasks[a] := getD_eq_getElem _ _ ha
  rw [← hphase]
  exact h a

/-- The only token. -/
theorem tokens_eq_one (ha : (s.phase a).tokensOn i = 1)
    (hothers : ∀ b, b ≠ a → (s.phase b).tokensOn i = 0) : s.tokens i = 1 := by
  have hlt : a < s.tasks.length := by
    apply lt_length_of_phase
    intro hidle
    rw [hidle] at ha
    cases ha
  -- without the task there are none
  have hnone : (s.next a .idle s.table none).tokens i = 0 := by
    apply tokens_eq_zero
    intro b
    by_cases hba : b = a
    · rw [hba, phase_next_self hlt]
      rfl
    · rw [phase_next_of_ne hba]
      exact hothers b hba
  have hsum := tokens_next (p := .idle) (T := s.table) (l := none) hlt i
  have hidle : Phase.idle.tokensOn i = 0 := rfl
  omega

theorem tokensOn_exclusiveOn (h : q.ExclusiveOn i) : q.tokensOn i = 1 := by
  obtain ⟨token, htoken, -, hindex⟩ := h
  rw [tokensOn_of_token htoken, if_pos hindex]

/-- A task that makes a pass for a token has none. -/
theorem Asks.token_none (h : Asks cfg ty s a token expected search) : (s.phase a).token? = none := by
  rcases h with ⟨hidle, -⟩ | ⟨passes, hphase⟩
  · rw [hidle]
    rfl
  · rw [hphase]
    rfl

theorem toNat_add_one {r : BitVec 16} (h : r.toNat < 2 ^ 16 - 1) : (r + 1).toNat = r.toNat + 1 := by
  exact Nat.mod_eq_of_lt (by simp; omega)

theorem toNat_sub_one {r : BitVec 16} (h : 0 < r.toNat) :
    (if r = 0 then 0 else r - 1).toNat + 1 = r.toNat := by
  have hne : r ≠ 0 := by
    rintro rfl
    cases h
  rw [if_neg hne, BitVec.toNat_sub_of_le (by bv_omega)]
  simp
  omega

namespace Counts

theorem init (n : Nat) : Counts (Sys.init n) := by
  have hnone : ∀ i, (Sys.init n).tokens i = 0 := by
    intro i
    simp [Sys.tokens, Sys.init, tally, Phase.tokensOn, Phase.token?]
  refine ⟨?_, ?_, ?_⟩
  · intro i
    rw [hnone]
    rfl
  · rintro a i ⟨token, htoken, -⟩
    rw [phase_init] at htoken
    cases htoken
  · intro i _
    exact hnone i

section

variable (h : Counts s)
include h

/-- A step of the task `a` that concerns the record `i` only. -/
theorem next (ha : a < s.tasks.length) (i : Nat)
    (hsame : ∀ j, j ≠ i → T.records j = s.table.records j)
    (hself : ∀ j, j ≠ i → p.tokensOn j = (s.phase a).tokensOn j)
    (hcounted : (T.records i).refcount.toNat + (s.phase a).tokensOn i = s.tokens i + p.tokensOn i)
    (halone : ∀ b, (if b = a then p else s.phase b).ExclusiveOn i →
      s.tokens i + p.tokensOn i = 1 + (s.phase a).tokensOn i)
    (hmine : ∀ j, j ≠ i → p.ExclusiveOn j → (s.phase a).ExclusiveOn j)
    (hfree : objectIdDefined (T.records i).activeId = false →
      s.tokens i + p.tokensOn i = (s.phase a).tokensOn i) : Counts (s.next a p T l) := by
  have hsum := fun j => tokens_next (p := p) (T := T) (l := l) ha j
  have hother : ∀ j, j ≠ i → (s.next a p T l).tokens j = s.tokens j := by
    intro j hj
    have := hsum j
    have := hself j hj
    omega
  -- on `i` the three facts are the assumptions, elsewhere neither table nor tokens have changed
  refine ⟨?_, ?_, ?_⟩
  · intro j
    by_cases hj : j = i
    · have := hsum j
      subst hj
      change (T.records j).refcount.toNat = _
      omega
    · rw [hother j hj, ← h.counted j]
      change (T.records j).refcount.toNat = _
      rw [hsame j hj]
  · intro b j hb
    have hphase : (s.next a p T l).phase b = if b = a then p else s.phase b := by
      by_cases hba : b = a
      · rw [hba, phase_next_self ha, if_pos rfl]
      · rw [phase_next_of_ne hba, if_neg hba]
    rw [hphase] at hb
    by_cases hj : j = i
    · subst hj
      have := hsum j
      have := halone b hb
      omega
    rw [hother j hj]
    by_cases hba : b = a
    · rw [if_pos hba] at hb
      exact h.alone a j (hmine j hj hb)
    · rw [if_neg hba] at hb
      exact h.alone b j hb
  · intro j hundefined
    change objectIdDefined (T.records j).activeId = false at hundefined
    by_cases hj : j = i
    · subst hj
      have := hsum j
      have := hfree hundefined
      omega
    · rw [hsame j hj] at hundefined
      rw [hother j hj]
      exact h.free j hundefined

/-- A task that neither gets nor gives back a token, and changes no count. -/
theorem idles (ha : a < s.tasks.length) (i : Nat)
    (hsame : ∀ j, j ≠ i → T.records j = s.table.records j)
    (hcount : (T.records i).refcount = (s.table.records i).refcount)
    (hold : (s.phase a).token? = none) (hnew : p.token? = none)
    (hdefined : objectIdDefined (T.records i).activeId = false →
      objectIdDefined (s.activeId i) = false) : Counts (s.next a p T l) := by
  have hold' := tokensOn_of_none hold
  have hnew' := tokensOn_of_none hnew
  refine h.next ha i hsame ?_ ?_ ?_ ?_ ?_
  · intro j _
    rw [hold', hnew']
  · rw [hold', hnew', hcount, h.counted]
  · intro b hb
    rw [hold', hnew']
    by_cases hba : b = a
    · rw [if_pos hba] at hb
      obtain ⟨token, htoken, -⟩ := hb
      rw [hnew] at htoken
      cases htoken
    · rw [if_neg hba] at hb
      exact h.alone b i hb
  · rintro j - ⟨token, htoken, -⟩
    rw [hnew] at htoken
    cases htoken
  · intro hundefined
    rw [hold', hnew']
    exact h.free i (hdefined hundefined)

/-- A new token for a record. Exclusive use is of a record without tokens, and not given
beside other tokens. -/
theorem grants (ha : a < s.tasks.length) (hp : p.token? = some token)
    (hsame : ∀ j, j ≠ token.objIdx → T.records j = s.table.records j)
    (hold : (s.phase a).token? = none)
    (hcount : (T.records token.objIdx).refcount.toNat = s.tokens token.objIdx + 1)
    (hmine : token.lockMode = .exclusive → s.tokens token.objIdx = 0)
    (hothers : ∀ b, b ≠ a → ¬(s.phase b).ExclusiveOn token.objIdx)
    (hdefined : objectIdDefined (T.records token.objIdx).activeId = true) :
    Counts (s.next a p T l) := by
  have hold' := tokensOn_of_none hold
  have hnew' := tokensOn_of_token hp
  have hexclusive : ∀ j, p.ExclusiveOn j → token.lockMode = .exclusive ∧ token.objIdx = j := by
    rintro j ⟨token', htoken, hmode⟩
    rw [hp] at htoken
    cases htoken
    exact hmode
  refine h.next ha token.objIdx hsame ?_ ?_ ?_ ?_ ?_
  · intro j hj
    rw [hold', hnew', if_neg (Ne.symm hj)]
  · rw [hold', hnew', if_pos rfl, hcount]
  · intro b hb
    rw [hold', hnew', if_pos rfl]
    by_cases hba : b = a
    · rw [if_pos hba] at hb
      have := hmine (hexclusive _ hb).1
      omega
    · rw [if_neg hba] at hb
      exact absurd hb (hothers b hba)
  · intro j hj hb
    exact absurd (hexclusive j hb).2.symm hj
  · intro hundefined
    rw [hdefined] at hundefined
    cases hundefined

/-- A task that gets its token. -/
theorem granted (hres : Reservations cfg ty s) (ha : a < s.tasks.length)
    (hlight : ∀ i, s.tokens i < 2 ^ 16 - 1) (hasks : Asks cfg ty s a token expected search)
    (hpass : convertPass token expected s.table = .matched expected' T) :
    Counts (s.next a (.holds token) (addReference token T) l) := by
  obtain ⟨hid, hcase⟩ := convertPass_matched hpass
  obtain ⟨husable, hexpected⟩ := hres.asks hasks
  have halone := hres.asks_alone hasks hid
  have hmode : token.lockMode ≠ .none := by
    intro hnone
    have := husable.mode
    rw [hnone] at this
    cases this
  rw [addReference, if_neg hmode]
  have hcount : (s.table.records token.objIdx).refcount.toNat < 2 ^ 16 - 1 := by
    rw [h.counted]
    exact hlight _
  rcases hcase with ⟨hshared, rfl⟩ | ⟨hexclusive, hzero, rfl⟩
  -- the ID was found in the record, so nobody has reserved it
  · refine h.grants ha rfl (fun j hj => s.table.modifyRecord_of_ne _ hj) hasks.token_none ?_
      (fun hexclusive => absurd hexclusive hshared)
      (fun b hb hexclusive => halone b hb (.inl hexclusive)) ?_
    · rw [Table.modifyRecord_self, toNat_add_one hcount, h.counted]
    · rw [Table.modifyRecord_self]
      change objectIdDefined (s.activeId token.objIdx) = true
      rw [hid]
      rcases hexpected with rfl | ⟨rfl, -⟩
      · exact objectIdDefined_of_isValid husable.valid
      · rfl
  -- the count is zero, and it counts the tokens
  · refine h.grants ha rfl ?_ hasks.token_none ?_ ?_
      (fun b hb hexclusive => halone b hb (.inl hexclusive)) ?_
    · intro j hj
      rw [Table.modifyRecord_of_ne _ _ hj, Table.setId_of_ne _ _ hj]
    · rw [Table.modifyRecord_self, Table.setId_self, toNat_add_one hcount, h.counted]
    · intro _
      rw [← h.counted, hzero]
      rfl
    · rw [Table.modifyRecord_self, Table.setId_self]
      rfl

/-- A task that goes on waiting. -/
theorem waits (ha : a < s.tasks.length) (hasks : Asks cfg ty s a token expected search)
    (hpass : convertPass token expected s.table = .contended expected' T) (passes : Nat) :
    Counts (s.next a (.waiting token expected' passes search) T none) := by
  rcases convertPass_contended hpass with ⟨-, -, -, rfl, rfl⟩ | ⟨-, -, rfl, rfl⟩
  -- the reserved ID it may have written is defined as well
  · refine h.idles ha token.objIdx (fun j hj => s.table.setId_of_ne _ hj) ?_ hasks.token_none rfl ?_
    · rw [Table.setId_self]
    · rw [Table.setId_self]
      nofun
  · exact h.idles ha token.objIdx (fun _ _ => rfl) rfl hasks.token_none rfl id

/-- A task that gives up. -/
theorem fails (hres : Reservations cfg ty s) (ha : a < s.tasks.length)
    (hasks : Asks cfg ty s a token expected search) {expected' : ObjId}
    (hpass : convertPass token expected s.table = .refused ∧ expected' = expected ∧ T = s.table ∨
      convertPass token expected s.table = .contended expected' T) (status : Status) :
    Counts (giveUp s a token search status expected' T).2 := by
  have hphase : (if search then Phase.stuck else Phase.idle).token? = none := by
    cases search <;> rfl
  unfold giveUp
  rcases hres.fails_table hasks hpass with ⟨-, htable⟩ | ⟨-, htable⟩
  · rw [htable]
    exact h.idles ha token.objIdx (fun _ _ => rfl) rfl hasks.token_none hphase id
  rw [htable]
  refine h.idles ha token.objIdx (fun j hj => s.table.setId_of_ne _ hj) ?_ hasks.token_none
    hphase ?_
  · rw [Table.setId_self]
  · rw [Table.setId_self]
    rw [objectIdDefined_of_isValid (hres.asks hasks).1.valid]
    nofun

/-- While a task of the operating system is ended, nobody else has a token for it: one that
keeps the table locked would have to wait, and no other kind but exclusive ones is used. -/
theorem tokensOn_of_task (hres : Reservations cfg objectTypeTask s)
    (hphase : s.phase a = .holds token) (hglobal : token.lockMode = .global) (hb : b ≠ a) :
    (s.phase b).tokensOn token.objIdx = 0 := by
  have hmine : (s.phase a).tokensOn token.objIdx = 1 := by
    have htoken : (s.phase a).token? = some token := by
      rw [hphase]
      rfl
    rw [tokensOn_of_token htoken, if_pos rfl]
  have hnotExclusive : ¬(s.phase b).ExclusiveOn token.objIdx := by
    intro hexclusive
    have hone := h.alone b _ hexclusive
    have htwo := two_le_tokens hb (tokensOn_exclusiveOn hexclusive) hmine
    omega
  have hproper := hres.proper b
  cases htoken : (s.phase b).token? with
  | none => exact tokensOn_of_none htoken _
  | some token' =>
    rw [tokensOn_of_token htoken]
    refine if_neg fun hindex => ?_
    cases hphase' : s.phase b with
    | holds =>
      rw [hphase'] at hproper htoken
      cases htoken
      have hmode := hproper.mode
      simp only [modeUsed, bne_self_eq_false, Bool.and_false, Bool.or_false, Bool.or_eq_true,
        beq_iff_eq] at hmode
      rcases hmode with hmode | hmode
      · have hlock := (hres.locked a token hphase hglobal).1
        rw [(hres.locked b token' hphase' hmode).1] at hlock
        exact hb (Option.some.inj hlock)
      · rw [hphase'] at hnotExclusive
        exact hnotExclusive ⟨token', rfl, hmode, hindex⟩
    | creating =>
      rw [hphase'] at hproper htoken hnotExclusive
      cases htoken
      exact hnotExclusive ⟨token', rfl, hproper.2, hindex⟩
    | _ =>
      rw [hphase'] at htoken
      cases htoken

/-- A token with which a record is freed is the only one. -/
theorem tokens_of_freed (hres : Reservations cfg ty s) {finalId : Option ObjId}
    (ha : a < s.tasks.length) (hfinishes : Finishes ty s a token finalId)
    (hfreed : ((finishRecord token finalId s.table).records token.objIdx).activeId =
      objectIdUndefined) : s.tokens token.objIdx = 1 := by
  obtain ⟨htoken, husable⟩ := hres.finishes_phase hfinishes
  have hmine : (s.phase a).tokensOn token.objIdx = 1 := by
    rw [tokensOn_of_token htoken, if_pos rfl]
  by_cases hexclusive : token.lockMode = .exclusive
  · exact h.alone a _ ⟨token, htoken, hexclusive, rfl⟩
  rcases hfinishes with ⟨hphase, rfl⟩ | ⟨hphase, -, hmode⟩ | ⟨⟨name, hphase⟩, -⟩
  · -- the ID is not written, and that of a record in use is defined
    rw [finishRecord, Table.modifyRecord_self] at hfreed
    rw [if_neg hexclusive] at hfreed
    have hzero := h.free token.objIdx (by rw [Sys.activeId, hfreed]; rfl)
    have hpos : (s.phase a).tokensOn token.objIdx ≤ s.tokens token.objIdx := le_tally ha
    omega
  · -- `OS_ObjectIdFinalizeDelete` with the table locked, as `OS_TaskExit` calls it
    obtain ⟨hglobal, rfl⟩ := hmode.resolve_left hexclusive
    exact tokens_eq_one hmine fun b hb => h.tokensOn_of_task hres hphase hglobal hb
  · have hproper := hres.proper a
    rw [hphase] at hproper
    exact absurd hproper.2 hexclusive

/-- A task that gives its token back. -/
theorem finishes (hres : Reservations cfg ty s) (ha : a < s.tasks.length) {finalId : Option ObjId}
    (hfinishes : Finishes ty s a token finalId) :
    Counts (s.next a .idle (finishRecord token finalId s.table) none) := by
  obtain ⟨htoken, husable⟩ := hres.finishes_phase hfinishes
  have hold := tokensOn_of_token htoken
  have hmine : (s.phase a).tokensOn token.objIdx = 1 := by rw [hold, if_pos rfl]
  have hpos : 1 ≤ s.tokens token.objIdx := hmine ▸ le_tally ha
  have hidle : ∀ j, ¬Phase.idle.ExclusiveOn j := fun j hj => not_reserves_idle (.inl hj)
  refine h.next ha token.objIdx ?_ ?_ ?_ ?_ ?_ ?_
  · intro j hj
    rw [finishRecord, s.table.modifyRecord_of_ne _ hj]
  · intro j hj
    rw [hold, if_neg (Ne.symm hj)]
    rfl
  · rw [hmine, finishRecord, Table.modifyRecord_self]
    rw [toNat_sub_one (by rw [h.counted]; exact hpos), h.counted]
    rfl
  · intro b hb
    by_cases hba : b = a
    · rw [if_pos hba] at hb
      exact absurd hb (hidle _)
    -- the two tokens would both be counted
    rw [if_neg hba] at hb
    have hone := h.alone b _ hb
    have htwo := two_le_tokens hba (tokensOn_exclusiveOn hb) hmine
    omega
  · exact fun j _ hj => absurd hj (hidle j)
  · intro hundefined
    rw [hmine]
    refine h.tokens_of_freed hres ha hfinishes ?_
    simpa [objectIdDefined] using hundefined

/-- The counts stay right as long as there is room for one more. -/
theorem move (hres : Reservations cfg ty s) (hlight : ∀ i, s.tokens i < 2 ^ 16 - 1)
    (ha : a < s.tasks.length) (hmove : Move cfg ty s e a o s') : Counts s' := by
  cases hmove with
  | refused => exact h
  | granted search hfree hasks hpass => exact h.granted hres ha hlight hasks hpass
  | waits passes search hfree hasks hpass => exact h.waits ha hasks hpass passes
  | fails status search hfree hasks hpass => exact h.fails hres ha hasks hpass status
  | leaks status hfree hidle =>
    exact h.idles ha 0 (fun _ _ => rfl) rfl (by rw [hidle]; rfl) rfl id
  | finishes hlock hfinishes => exact h.finishes hres ha hfinishes
  | @creates i objId self handler name hevent hfree hidle hi hundefined =>
    have hzero := h.free i hundefined
    refine h.grants ha rfl (fun j hj => update_of_ne hj ..) (by rw [hidle]; rfl) ?_
      (fun _ => hzero) (fun b _ hb => hres.none_of_undefined hundefined b (.inl hb)) ?_
    · dsimp only
      rw [update_self, hzero]
      rfl
    · dsimp only
      rw [update_self]
      rfl
  | @blocks i objId self hfree hidle hi hundefined =>
    -- nothing has been counted yet, the record may be used from now on
    refine h.idles ha i (fun j hj => update_of_ne hj ..) ?_ (by rw [hidle]; rfl) rfl ?_
    · dsimp only
      rw [update_self]
      apply BitVec.eq_of_toNat_eq
      rw [h.counted, h.free i hundefined]
      rfl
    · exact fun _ => hundefined
  | @names token check name =>
    have hsame : ∀ j, let r := (s.table.modifyRecord token.objIdx fun obj =>
        { obj with nameEntry := some name }).records j
        r.refcount = (s.table.records j).refcount ∧ r.activeId = s.activeId j := by
      intro j
      by_cases hj : j = token.objIdx
      · rw [hj, Table.modifyRecord_self]
        exact ⟨rfl, rfl⟩
      · rw [s.table.modifyRecord_of_ne _ hj]
        exact ⟨rfl, rfl⟩
    refine ⟨?_, h.alone, ?_⟩
    · intro j
      rw [(hsame j).1]
      exact h.counted j
    · intro j hundefined
      refine h.free j ?_
      rw [← (hsame j).2]
      exact hundefined

end

end Counts

/-- Runs in which every step is taken with room for one more token on each record. -/
inductive LightRun (cfg : OsConfig) (ty n : Nat) : List Event → Sys → Prop where
  | start : LightRun cfg ty n [] (Sys.init n)
  | next {es : List Event} {e : Event} {s s' : Sys} {o : Outcome} (hrun : LightRun cfg ty n es s)
      (hlight : ∀ i, s.tokens i < 2 ^ 16 - 1) (hstep : step cfg ty s e = some (o, s')) :
      LightRun cfg ty n (es ++ [e]) s'

theorem LightRun.run (h : LightRun cfg ty n es s) : Run cfg ty n es s := by
  induction h with
  | start => exact .start
  | next _ _ hstep ih => exact .next ih hstep

theorem Counts.run (hrun : LightRun cfg ty n es s) : Counts s := by
  induction hrun with
  | start => exact Counts.init n
  | next hrun hlight hstep ih =>
    obtain ⟨ha, hmove⟩ := step_moves hstep
    exact ih.move (Reservations.run hrun.run) hlight ha hmove

/-! ## Attempts that fail -/

/-- A lookup by an ID that is in its record is answered with a token at once, as soon as the
table is not locked. -/
def FoundById (cfg : OsConfig) (ty : Nat) (s : Sys) (id : ObjId) : Prop :=
  ∀ b mode, s.lock = none → b < s.tasks.length → s.phase b = .idle → modeUsed ty mode = true →
    mode ≠ .exclusive → ∃ s', step cfg ty s (.getById b mode id) = some (.token, s')

/-- What a step does to the ID of a record for which its task wants exclusive use: it is
overwritten only if it is the ID asked for. When the attempt fails, it is put back if it was
overwritten and otherwise left alone, and it can be looked up. -/
structure ExclusiveStep (cfg : OsConfig) (ty : Nat) (s : Sys) (a : Nat) (o : Outcome) (s' : Sys) :
    Prop where
  overwrites : ∀ token passes search,
    s'.phase a = .waiting token objectIdReserved passes search → token.lockMode = .exclusive →
    ¬(s.phase a).Reserves token.objIdx → s.activeId token.objIdx = token.objId
  restores : ∀ status token passes search, o = .failed status →
    s.phase a = .waiting token objectIdReserved passes search → token.lockMode = .exclusive →
    s'.activeId token.objIdx = token.objId ∧ FoundById cfg ty s' token.objId ∧
      (search = false → s'.lock = none)
  keeps : ∀ status, o = .failed status → (∀ i, ¬(s.phase a).Reserves i) → s'.table = s.table

theorem foundById (husable : token.Usable cfg ty) (hid : s.activeId token.objIdx = token.objId) :
    FoundById cfg ty s token.objId := by
  intro b mode hfree hb hidle hmode hshared
  have hpass : convertPass ⟨mode, ty, token.objIdx, token.objId⟩ token.objId s.table =
      .matched token.objId s.table := by
    change (s.table.records token.objIdx).activeId = token.objId at hid
    unfold convertPass
    rw [if_pos hid, if_neg hshared]
  have hstep : step cfg ty s (.getById b mode token.objId) =
      some (attempt s b ⟨mode, ty, token.objIdx, token.objId⟩ false 4 token.objId) := by
    rw [step, if_pos ⟨hfree, hb, hidle, hmode⟩, husable.index]
    exact if_pos husable.valid
  rw [hstep, attempt, hpass]
  exact ⟨_, rfl⟩

/-- The token that a task waits for is the one its next pass is for. -/
theorem Asks.waiting {token' : Token} {passes : Nat} {search' : Bool}
    (h : Asks cfg ty s a token' expected search)
    (hphase : s.phase a = .waiting token objectIdReserved passes search') :
    token' = token ∧ expected = objectIdReserved ∧ search = search' := by
  rcases h with ⟨hidle, -⟩ | ⟨passes', hphase'⟩
  · cases hphase.symm.trans hidle
  · cases hphase.symm.trans hphase'
    exact ⟨rfl, rfl, rfl⟩

/-- A pass that overwrites the ID. -/
theorem overwrites_of_waits (hres : Reservations cfg ty s)
    (hasks : Asks cfg ty s a token expected search)
    (hpass : convertPass token expected s.table = .contended objectIdReserved T)
    (hnot : ¬(s.phase a).Reserves token.objIdx) : s.activeId token.objIdx = token.objId := by
  rcases (hres.asks hasks).2 with rfl | ⟨-, -, hmine⟩
  · rcases convertPass_contended hpass with ⟨-, hid, -⟩ | ⟨-, hne, heq, -⟩
    · exact hid
    · exact absurd heq.symm hne
  · exact absurd hmine hnot

/-- Every step treats the IDs of records that are wanted exclusively so. -/
theorem exclusiveStep (hres : Reservations cfg ty s) (ha : a < s.tasks.length)
    (hmove : Move cfg ty s e a o s') : ExclusiveStep cfg ty s a o s' := by
  refine ⟨?_, ?_, ?_⟩
  · intro token passes search hphase hexclusive hnot
    cases hmove with
    | refused status hidle => cases hphase.symm.trans hidle
    | waits passes' search' hfree hasks hpass =>
      rw [phase_next_self ha] at hphase
      cases hphase
      exact overwrites_of_waits hres hasks hpass hnot
    | fails status search' =>
      unfold giveUp at hphase
      rw [phase_next_self ha] at hphase
      cases search' <;> cases hphase
    | names name hevent hcreating =>
      cases hcreating.symm.trans hphase
    | _ =>
      rw [phase_next_self ha] at hphase
      cases hphase
  · intro status token passes search ho hphase hexclusive
    cases hmove with
    | refused status' hidle => cases hphase.symm.trans hidle
    | @fails token' expected expected' T status' search' hfree hasks hpass =>
      obtain ⟨rfl, rfl, rfl⟩ := hasks.waiting hphase
      have hmine : (s.phase a).Reserves token'.objIdx := by
        rw [hphase, reserves_waiting]
        exact ⟨rfl, hexclusive, rfl⟩
      have hid : (giveUp s a token' search' status' expected' T).2.activeId token'.objIdx =
          token'.objId := by
        rcases hres.fails_table hasks hpass with ⟨hnot, -⟩ | ⟨-, htable⟩
        · exact absurd hmine hnot
        · change ((restoreId token' expected' T).records token'.objIdx).activeId = token'.objId
          rw [htable, Table.setId_self]
      refine ⟨hid, foundById (hres.asks hasks).1 hid, ?_⟩
      rintro rfl
      rfl
    | leaks status' hfree hidle => cases hphase.symm.trans hidle
    | _ => cases ho
  · intro status ho hnot
    cases hmove with
    | refused | leaks => rfl
    | @fails token' expected expected' T status' search' hfree hasks hpass =>
      rcases hres.fails_table hasks hpass with ⟨-, htable⟩ | ⟨hmine, -⟩
      · exact htable
      · exact absurd hmine (hnot _)
    | _ => cases ho

/-- There are not more tokens than tasks, each task having one at most. -/
theorem tokens_le_length (s : Sys) (i : Nat) : s.tokens i ≤ s.tasks.length := by
  have hle : ∀ q : Phase, q.tokensOn i ≤ 1 := by
    intro q
    unfold Phase.tokensOn
    split
    · split <;> omega
    · omega
  unfold Sys.tokens
  induction s.tasks with
  | nil => exact Nat.le_refl 0
  | cons q tasks ih =>
    have := hle q
    rw [tally_cons, length_cons]
    omega

theorem length_of_run (hrun : Run cfg ty n es s) : s.tasks.length = n := by
  induction hrun with
  | start => exact length_replicate
  | next _ hstep ih =>
    obtain ⟨-, hmove⟩ := step_moves hstep
    cases hmove with
    | refused | names => exact ih
    | _ => exact (length_modify ..).trans ih

/-- With less than 65535 tasks there is always room. -/
theorem Run.light (hn : n < 2 ^ 16 - 1) (hrun : Run cfg ty n es s) : LightRun cfg ty n es s := by
  induction hrun with
  | start => exact .start
  | @next es e s s' o hrun hstep ih =>
    refine .next ih (fun i => ?_) hstep
    have hle := tokens_le_length s i
    rw [length_of_run hrun] at hle
    exact Nat.lt_of_le_of_lt hle hn

/-- As long as no count can overflow, the reference count of every record is the number of
tokens for it, beside a token for exclusive use there is no other, and attempts at exclusive use
that fail leave the ID as it was. -/
theorem exclusion_of_light (cfg : OsConfig) (ty n : Nat) (es : List Event) (s : Sys)
    (hrun : LightRun cfg ty n es s) :
    (∀ i, (s.table.records i).refcount.toNat = s.tokens i) ∧
    (∀ a b i, a ≠ b → (s.phase a).ExclusiveOn i → (s.phase b).tokensOn i = 0) ∧
    ∀ e o s', step cfg ty s e = some (o, s') → ExclusiveStep cfg ty s e.task o s' := by
  have hcounts := Counts.run hrun
  refine ⟨hcounts.counted, ?_, ?_⟩
  · intro a b i hab hexclusive
    have hone := hcounts.alone a i hexclusive
    by_contra hne
    have hb : (s.phase b).tokensOn i = 1 := by
      unfold Phase.tokensOn at hne ⊢
      grind
    have htwo := two_le_tokens hab (tokensOn_exclusiveOn hexclusive) hb
    omega
  · intro e o s' hstep
    obtain ⟨ha, hmove⟩ := step_moves hstep
    exact exclusiveStep (Reservations.run hrun.run) ha hmove

end Counts

/-! ## A count that overflows -/

/-- A stream is in use by the tasks `0` to `k - 1`. -/
structure Crowd (n k : Nat) (s : Sys) : Prop where
  run : ∃ es, Run smallOs 6 n es s
  free : s.lock = none
  record : s.table.records 1 = ⟨none, 0x00060001, 0, BitVec.ofNat 16 k⟩
  tokens : s.tokens 1 = k
  users : ∀ a < k, s.phase a = .holds (userToken 6 .refcount)
  others : ∀ a, k ≤ a → s.phase a = .idle

/-- The stream is created. -/
theorem Crowd.starts (hn : 0 < n) : ∃ s, Crowd n 0 s := by
  have hlen : 0 < (Sys.init n).tasks.length := by
    rw [Sys.init, length_replicate]
    exact hn
  obtain ⟨T, hallocate, hrecord⟩ := allocate_first (.inr rfl) hn none
  generalize hs₁ : (Sys.init n).next 0 (.creating (userToken 6 .exclusive) none) T none = s₁
    at hallocate
  have hphase : s₁.phase 0 = .creating (userToken 6 .exclusive) none := by
    rw [← hs₁, phase_next_self hlen]
  have hlen₁ : 0 < s₁.tasks.length := by
    rw [← hs₁]
    exact hlen.trans_eq (length_modify ..).symm
  have hfinalize : step smallOs 6 s₁ (.finalizeNew 0 .success) = some (.done,
      s₁.next 0 .idle (finishRecord (userToken 6 .exclusive) (some 0x00060001) s₁.table) none) := by
    rw [step, hphase]
    exact if_pos ⟨by rw [← hs₁]; rfl, hlen₁⟩
  have hidle : ∀ a, (s₁.next 0 .idle (finishRecord (userToken 6 .exclusive) (some 0x00060001)
      s₁.table) none).phase a = .idle := by
    intro a
    by_cases ha : a = 0
    · rw [ha, phase_next_self hlen₁]
    · rw [phase_next_of_ne ha, ← hs₁, phase_next_of_ne ha, phase_init]
  refine ⟨_, ⟨_, .next (.next .start hallocate) hfinalize⟩, rfl, ?_, ?_, by simp, fun a _ => hidle a⟩
  · have hrecord₁ : s₁.table.records 1 = ⟨none, objectIdReserved, 0, 1⟩ := by
      rw [← hs₁]
      exact hrecord
    simp only [Sys.next, finishRecord, userToken, Table.modifyRecord_self, hrecord₁]
    rfl
  · apply tokens_eq_zero
    intro a
    rw [hidle]
    rfl

/-- One more user. -/
theorem Crowd.joins {k : Nat} {s : Sys} (h : Crowd n k s) (hk : k < n) :
    ∃ s', Crowd n (k + 1) s' := by
  obtain ⟨es, hrun⟩ := h.run
  have hlen : k < s.tasks.length := by
    rw [length_of_run hrun]
    exact hk
  have hidle := h.others k (Nat.le_refl k)
  have hpass : convertPass (userToken 6 .refcount) 0x00060001 s.table =
      .matched 0x00060001 s.table := by
    unfold convertPass userToken
    rw [h.record]
    rfl
  have hstep : step smallOs 6 s (.getById k .refcount 0x00060001) = some (.token,
      s.next k (.holds (userToken 6 .refcount)) (addReference (userToken 6 .refcount) s.table)
        none) := by
    rw [step, if_pos ⟨h.free, hlen, hidle, rfl⟩]
    change some (attempt s k (userToken 6 .refcount) false 4 0x00060001) = _
    rw [attempt, hpass]
    rfl
  refine ⟨_, ⟨_, .next hrun hstep⟩, rfl, ?_, ?_, ?_, ?_⟩
  · change (addReference (userToken 6 .refcount) s.table).records 1 = _
    unfold addReference userToken
    rw [if_neg (by simp), Table.modifyRecord_self, h.record, BitVec.ofNat_add]
    rfl
  · have hsum := tokens_next (p := .holds (userToken 6 .refcount))
      (T := addReference (userToken 6 .refcount) s.table) (l := none) hlen 1
    rw [hidle, h.tokens] at hsum
    exact hsum
  · intro a ha
    by_cases hak : a = k
    · rw [hak, phase_next_self hlen]
    · rw [phase_next_of_ne hak]
      exact h.users a (by omega)
  · intro a ha
    rw [phase_next_of_ne (by omega)]
    exact h.others a (by omega)

theorem Crowd.gathers (hn : 0 < n) (k : Nat) (hk : k ≤ n) : ∃ s, Crowd n k s := by
  induction k with
  | zero => exact Crowd.starts hn
  | succ k ih =>
    obtain ⟨s, hs⟩ := ih (by omega)
    exact hs.joins (by omega)

/-- Two tasks use a stream, a third wants to close it and is at its last pass. -/
def closeInUse : List Event :=
  [.allocateNew 0 none 0 fun _ _ => .success, .finalizeNew 0 .success,
    .getById 0 .refcount 0x00060001, .getById 1 .refcount 0x00060001,
    .getById 2 .exclusive 0x00060001, .wake 2, .wake 2, .wake 2]

/-- The attempt fails: the two tokens are counted, and the ID is back and can be looked up. -/
theorem exclusion_two_users : ∃ s s', LightRun smallOs 6 3 closeInUse s ∧
    (s.table.records 1).refcount.toNat = 2 ∧ s.tokens 1 = 2 ∧ s.activeId 1 = objectIdReserved ∧
    step smallOs 6 s (.wake 2) = some (.failed .objectInUse, s') ∧
    s'.activeId 1 = 0x00060001 ∧ FoundById smallOs 6 s' 0x00060001 ∧ s'.lock = none := by
  have hexec : (exec smallOs 6 (Sys.init 3) closeInUse).map (fun s =>
      ((s.table.records 1).refcount.toNat, s.activeId 1, s.phase 2,
        (step smallOs 6 s (.wake 2)).map Prod.fst)) =
      some (2, objectIdReserved, .waiting (userToken 6 .exclusive) objectIdReserved 1 false,
        some (.failed .objectInUse)) := by
    decide +kernel
  obtain ⟨s, hs, hstate⟩ := Option.map_eq_some_iff.mp hexec
  simp only [Prod.mk.injEq] at hstate
  obtain ⟨hcount, hid, hphase, houtcome⟩ := hstate
  obtain ⟨⟨o, s'⟩, hstep, rfl⟩ := Option.map_eq_some_iff.mp houtcome
  have hlight : LightRun smallOs 6 3 closeInUse s := Run.light (by decide) (Run.start.exec hs)
  obtain ⟨hcounted, -, hexclusive⟩ := exclusion_of_light smallOs 6 3 closeInUse s hlight
  have hrestores := (hexclusive _ _ _ hstep).restores _ _ _ _ rfl hphase rfl
  exact ⟨s, s', hlight, hcount, (hcounted 1).symm.trans hcount, hid, hstep,
    hrestores.1, hrestores.2.1, hrestores.2.2 rfl⟩

/-- With 65536 users the count is zero again, and the stream is given to a task that wants to
close it; then there are 65537 tokens, and the count is one. -/
theorem exclusive_beside_users : ∃ es s, Run smallOs 6 65537 es s ∧ s.tokens 1 = 65537 ∧
    (s.table.records 1).refcount.toNat = 1 ∧ (s.phase 65536).ExclusiveOn 1 ∧
    (s.phase 0).tokensOn 1 = 1 := by
  obtain ⟨s, h⟩ := Crowd.gathers (by decide) 65536 (by decide : 65536 ≤ 65537)
  obtain ⟨es, hrun⟩ := h.run
  have hlen : 65536 < s.tasks.length := by
    rw [length_of_run hrun]
    exact Nat.lt_succ_self _
  have hidle := h.others 65536 (Nat.le_refl _)
  have hrecord := h.record
  have hpass : convertPass (userToken 6 .exclusive) 0x00060001 s.table =
      .matched objectIdReserved (s.table.setId 1 objectIdReserved) := by
    unfold convertPass userToken
    rw [hrecord]
    rfl
  have hstep : step smallOs 6 s (.getById 65536 .exclusive 0x00060001) = some (.token,
      s.next 65536 (.holds (userToken 6 .exclusive))
        (addReference (userToken 6 .exclusive) (s.table.setId 1 objectIdReserved)) none) := by
    rw [step, if_pos ⟨h.free, hlen, hidle, rfl⟩]
    change some (attempt s 65536 (userToken 6 .exclusive) false 4 0x00060001) = _
    rw [attempt, hpass]
    rfl
  refine ⟨_, _, .next hrun hstep, ?_, ?_, ?_, ?_⟩
  · have hsum := tokens_next (p := .holds (userToken 6 .exclusive))
      (T := addReference (userToken 6 .exclusive) (s.table.setId 1 objectIdReserved))
      (l := none) hlen 1
    rw [hidle, h.tokens] at hsum
    exact hsum
  · change ((addReference (userToken 6 .exclusive)
      (s.table.setId 1 objectIdReserved)).records 1).refcount.toNat = 1
    unfold addReference userToken
    rw [if_neg (by simp), Table.modifyRecord_self, Table.setId_self, hrecord]
    rfl
  · rw [phase_next_self hlen]
    exact ⟨_, rfl, rfl, rfl⟩
  · rw [phase_next_of_ne (by decide), h.users 0 (by decide)]
    rfl

end CfsEds.Osal
