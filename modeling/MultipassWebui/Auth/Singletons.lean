import MultipassWebui.Auth.Credentials
import MultipassWebui.Records.Table
import MultipassWebui.Transition.Pool

/-!
# First accesses of the singleton tables

`Setting.current` and `VmDefault.current` read the first row and, when there is
none, insert one.  Between the read and the insertion other threads can move.
The unique index on the key excludes nothing, since every insertion gets a key
of its own: two threads that have both seen the empty table insert two rows.
-/

namespace MultipassWebui.Auth

open MultipassWebui.Records
open MultipassWebui.Transition

/-- A row of `vm_defaults`. -/
structure VmDefault where
  cpus : Int
  memoryMb : Int
  diskGb : Int
  sshPublicKey : Option String
  sshPrivateKey : Option String
  deriving DecidableEq, Repr

/-- The row that `Setting.current` creates. -/
def Setting.seed (crypto : Crypto) : Setting := ⟨"admin", crypto.passwordDigest "admin"⟩

/-- The row that `VmDefault.current` creates. -/
def VmDefault.seed : VmDefault := ⟨2, 1024, 8, none, none⟩

namespace Singletons

variable {ρ : Type}

/-! ## Callers -/

inductive Stage where
  /-- Not within a call. -/
  | idle
  /-- The call has found no row and will insert one. -/
  | absent
  deriving DecidableEq, Repr

/-- A thread, with the rows that its calls have returned. -/
structure Caller (ρ : Type) where
  stage : Stage
  returned : List (Nat × ρ)
  deriving DecidableEq, Repr

namespace Caller

def fresh : Caller ρ := ⟨.idle, []⟩

/-- The next step of `first || create!(…)`. -/
def step (seed : ρ) (caller : Caller ρ) (table : Table ρ) : Option (Caller ρ × Table ρ) :=
  match caller.stage with
  | .idle =>
      match table.first with
      | some row => some ({ caller with returned := caller.returned ++ [row] }, table)
      | none => some ({ caller with stage := .absent }, table)
  | .absent =>
      some (⟨.idle, caller.returned ++ [(table.sequence, seed)]⟩, table.insert seed)

end Caller

abbrev State (ρ : Type) := Pool (Table ρ) (Caller ρ)

/-- An action is the position of the thread that moves. -/
def next (seed : ρ) : Step (State ρ) Nat :=
  fun pool i => Pool.stepAt (Caller.step seed) pool i

/-- The empty table, before the first call of any thread. -/
def start (ρ : Type) (threads : Nat) : State ρ :=
  ⟨Table.empty, List.replicate threads Caller.fresh⟩

/-- At most one row exists and all calls have returned the same one. -/
def Single (pool : State ρ) : Prop :=
  pool.shared.rows.length ≤ 1 ∧
    ∀ caller ∈ pool.threads, ∀ row ∈ caller.returned,
      ∀ other ∈ pool.threads, ∀ otherRow ∈ other.returned, otherRow = row

instance [DecidableEq ρ] (pool : State ρ) : Decidable (Single pool) :=
  inferInstanceAs (Decidable (_ ∧ _))

/-- A call reads the empty table only while no other call that has read it
empty has still to insert its row. -/
def Alone (pool : State ρ) (i : Nat) : Prop :=
  ∀ caller ∈ pool.threads[i]?, caller.stage = .idle → pool.shared.rows = [] →
    ∀ other ∈ pool.threads, other.stage = .idle

instance [DecidableEq ρ] (pool : State ρ) (i : Nat) : Decidable (Alone pool i) :=
  inferInstanceAs (Decidable (∀ caller ∈ pool.threads[i]?, _))

/-! ## What a step does -/

/-- The three steps: a read that finds a row, a read that finds none and an
insertion. -/
theorem next_cases {seed : ρ} {pool target : State ρ} {i : Nat}
    (step : next seed pool i = some target) :
    ∃ caller, pool.threads[i]? = some caller ∧
      ((caller.stage = .idle ∧ ∃ row, pool.shared.first = some row ∧
          target = ⟨pool.shared,
            pool.threads.set i { caller with returned := caller.returned ++ [row] }⟩) ∨
        (caller.stage = .idle ∧ pool.shared.rows = [] ∧
          target = ⟨pool.shared, pool.threads.set i { caller with stage := .absent }⟩) ∨
        (caller.stage = .absent ∧
          target = ⟨pool.shared.insert seed, pool.threads.set i
            ⟨.idle, caller.returned ++ [(pool.shared.sequence, seed)]⟩⟩)) := by
  rcases Pool.stepAt_eq_some_iff.mp step with ⟨caller, moved, found, stepped, rfl⟩
  refine ⟨caller, found, ?_⟩
  unfold Caller.step at stepped
  cases stage : caller.stage with
  | idle =>
      simp only [stage] at stepped
      cases read : pool.shared.first with
      | some row =>
          simp only [read, Option.some.injEq] at stepped
          exact Or.inl ⟨rfl, row, rfl, by rw [← stepped]⟩
      | none =>
          simp only [read, Option.some.injEq] at stepped
          have empty := (Table.first_eq_none_iff pool.shared).mp read
          exact Or.inr (Or.inl ⟨rfl, empty, by rw [← stepped]⟩)
  | absent =>
      simp only [stage, Option.some.injEq] at stepped
      exact Or.inr (Or.inr ⟨rfl, by rw [← stepped]⟩)

/-- A call that nothing interrupts does what `Setting.current` does. -/
theorem reachable_current (crypto : Crypto) {store : Store} {table : Table Setting}
    (same : store.settings = table.rows.map Prod.snd) :
    ∃ row after, Transition.Reachable (Pool.solo (Caller.step (Setting.seed crypto)))
        (Caller.fresh, table) (⟨.idle, [row]⟩, after) ∧
      (Setting.current crypto store).1 = .ok row.2 ∧
      (Setting.current crypto store).2.settings = after.rows.map Prod.snd := by
  cases read : table.first with
  | some row =>
      have found : store.settings.head? = some row.2 := by
        rw [same, List.head?_map]
        exact congrArg (Option.map Prod.snd) read
      have stepRead : Pool.solo (Caller.step (Setting.seed crypto)) (Caller.fresh, table) () =
          some (⟨.idle, [row]⟩, table) := by
        simp [Pool.solo, Caller.step, Caller.fresh, read]
      refine ⟨row, table, Reachable.head stepRead (Reachable.refl _ _), ?_⟩
      rw [Setting.current_of_head found]
      exact ⟨rfl, same⟩
  | none =>
      have found : store.settings.head? = none := by
        rw [same, List.head?_map]
        exact congrArg (Option.map Prod.snd) read
      let row := (table.sequence, Setting.seed crypto)
      have stepRead : Pool.solo (Caller.step (Setting.seed crypto)) (Caller.fresh, table) () =
          some (⟨.absent, []⟩, table) := by
        simp [Pool.solo, Caller.step, Caller.fresh, read]
      have stepInsert : Pool.solo (Caller.step (Setting.seed crypto)) (⟨.absent, []⟩, table) () =
          some (⟨.idle, [row]⟩, table.insert (Setting.seed crypto)) := by
        simp [Pool.solo, Caller.step, row]
      refine ⟨row, table.insert (Setting.seed crypto),
        Reachable.head stepRead (Reachable.head stepInsert (Reachable.refl _ _)), ?_⟩
      have run : Setting.current crypto store = (.ok (Setting.seed crypto),
          { store with settings := store.settings ++ [Setting.seed crypto] }) := by
        rw [Setting.current, Effect.Exec.bind_ok (Effect.Exec.gets_apply _ _), found]
        rfl
      rw [run]
      exact ⟨rfl, by rw [same]; simp [Table.insert]⟩

/-! ## The invariant -/

/-- Before the first insertion at most one thread is about to insert, and
afterwards none is. -/
inductive Seeded (pool : State ρ) : Prop where
  | before (empty : pool.shared.rows = [])
      (silent : ∀ caller ∈ pool.threads, caller.returned = [])
      (turn : ∀ (i j : Nat) (caller other : Caller ρ), pool.threads[i]? = some caller →
        pool.threads[j]? = some other → caller.stage = .absent → other.stage = .absent → i = j)
  | after (row : Nat × ρ) (only : pool.shared.rows = [row])
      (agree : ∀ caller ∈ pool.threads, ∀ other ∈ caller.returned, other = row)
      (idle : ∀ caller ∈ pool.threads, caller.stage = .idle)

theorem seeded_start (ρ : Type) (threads : Nat) : Seeded (start ρ threads) := by
  have fresh : ∀ caller ∈ (start ρ threads).threads, caller = Caller.fresh := by
    intro caller member
    exact List.eq_of_mem_replicate member
  apply Seeded.before rfl (fun caller member => by rw [fresh caller member]; rfl)
  intro i _ caller _ found _ absent _
  rw [fresh caller (List.mem_of_getElem? found)] at absent
  cases absent

theorem Seeded.single {pool : State ρ} (seeded : Seeded pool) : Single pool := by
  cases seeded with
  | before empty silent _ =>
      refine ⟨by simp [empty], ?_⟩
      intro caller member row returned
      rw [silent caller member] at returned
      cases returned
  | after row only agree _ =>
      refine ⟨by simp [only], ?_⟩
      intro caller member first returned other otherMember second otherReturned
      rw [agree caller member first returned, agree other otherMember second otherReturned]

section Steps

variable {pool : State ρ} {i : Nat} {caller : Caller ρ}

/-- A call that finds a row returns the one row there is. -/
theorem Seeded.returns {row : Nat × ρ} (seeded : Seeded pool)
    (found : pool.threads[i]? = some caller)
    (idle : caller.stage = .idle) (read : pool.shared.first = some row) :
    Seeded ⟨pool.shared,
      pool.threads.set i { caller with returned := caller.returned ++ [row] }⟩ := by
  cases seeded with
  | before empty _ _ =>
      rw [(Table.first_eq_none_iff pool.shared).mpr empty] at read
      cases read
  | after only rows agree waiting =>
      obtain rfl : only = row := by simpa [Table.first, rows] using read
      refine Seeded.after only rows ?_ (Pool.forall_set found waiting idle)
      apply Pool.forall_set found agree
      intro other returned
      rcases List.mem_append.mp returned with old | new
      · exact agree caller (List.mem_of_getElem? found) other old
      · exact List.mem_singleton.mp new

/-- A call that finds the table empty, and no other call about to insert, takes
the turn. -/
theorem Seeded.looks (seeded : Seeded pool) (alone : Alone pool i)
    (found : pool.threads[i]? = some caller) (idle : caller.stage = .idle)
    (empty : pool.shared.rows = []) :
    Seeded ⟨pool.shared, pool.threads.set i { caller with stage := .absent }⟩ := by
  cases seeded with
  | before _ silent _ =>
      have kept := silent caller (List.mem_of_getElem? found)
      refine Seeded.before empty (Pool.forall_set found silent kept) ?_
      have others : ∀ j other, (pool.threads.set i { caller with stage := .absent })[j]? =
          some other → other.stage = .absent → j = i := by
        intro j other atJ absent
        rcases Pool.getElem?_of_set found atJ with ⟨same, _⟩ | ⟨_, old⟩
        · exact same
        · rw [alone caller found idle empty other (List.mem_of_getElem? old)] at absent
          cases absent
      intro j k first second atJ atK firstAbsent secondAbsent
      rw [others j first atJ firstAbsent, others k second atK secondAbsent]
  | after row rows _ _ =>
      rw [empty] at rows
      cases rows

/-- The call that has the turn inserts the row, and no other one will. -/
theorem Seeded.inserts (seeded : Seeded pool) (seed : ρ) (found : pool.threads[i]? = some caller)
    (absent : caller.stage = .absent) :
    Seeded ⟨pool.shared.insert seed, pool.threads.set i
      ⟨.idle, caller.returned ++ [(pool.shared.sequence, seed)]⟩⟩ := by
  have member := List.mem_of_getElem? found
  cases seeded with
  | before empty silent turn =>
      apply Seeded.after (pool.shared.sequence, seed)
      · simp [Table.insert, empty]
      · refine Pool.forall_set found ?_ ?_
        · intro other otherMember row returned
          rw [silent other otherMember] at returned
          cases returned
        · intro row returned
          rw [silent caller member] at returned
          exact List.mem_singleton.mp returned
      · intro other otherMember
        rcases (Pool.mem_set found).mp otherMember with rfl | ⟨j, different, atJ⟩
        · rfl
        · cases stage : other.stage with
          | idle => rfl
          | absent => exact absurd (turn j i other caller atJ found stage absent) different
  | after _ _ _ waiting =>
      rw [waiting caller member] at absent
      cases absent

end Steps

/-- A step that does not read the empty table beside an open insertion keeps the
invariant. -/
theorem seeded_next {seed : ρ} {pool target : State ρ} {i : Nat} (seeded : Seeded pool)
    (alone : Alone pool i) (step : next seed pool i = some target) : Seeded target := by
  rcases next_cases step with ⟨caller, found, steps⟩
  rcases steps with ⟨idle, row, read, rfl⟩ | ⟨idle, empty, rfl⟩ | ⟨absent, rfl⟩
  · exact seeded.returns found idle read
  · exact seeded.looks alone found idle empty
  · exact seeded.inserts seed found absent

theorem always_single {seed : ρ} {pool : State ρ} {actions : List Nat} (seeded : Seeded pool)
    (alone : Throughout (next seed) Alone pool actions) :
    Always (next seed) Single pool actions :=
  (always_of_throughout (fun _ _ _ here condition step => seeded_next here condition step)
    seeded alone).imp fun _ => Seeded.single

/-! ## Two open insertions -/

/-- A thread that has found no row can always insert one. -/
theorem next_of_absent {seed : ρ} {pool : State ρ} {i : Nat} {caller : Caller ρ}
    (found : pool.threads[i]? = some caller) (absent : caller.stage = .absent) :
    next seed pool i = some ⟨pool.shared.insert seed, pool.threads.set i
      ⟨.idle, caller.returned ++ [(pool.shared.sequence, seed)]⟩⟩ := by
  have inserts : caller.step seed pool.shared = some
      (⟨.idle, caller.returned ++ [(pool.shared.sequence, seed)]⟩, pool.shared.insert seed) := by
    simp only [Caller.step, absent]
  exact Pool.stepAt_eq_some_iff.mpr ⟨caller, _, found, inserts, rfl⟩

/-- Two threads that have both found no row can both insert one, after which the
table is no singleton, whatever it held. -/
theorem not_single_of_absent {seed : ρ} {pool : State ρ} {i j : Nat} {caller other : Caller ρ}
    (different : i ≠ j) (found : pool.threads[i]? = some caller) (absent : caller.stage = .absent)
    (foundOther : pool.threads[j]? = some other) (absentOther : other.stage = .absent) :
    ¬ Always (next seed) Single pool [i, j] := by
  intro always
  have first := always.2 _ (next_of_absent found absent)
  have still : (pool.threads.set i ⟨.idle, caller.returned ++ [(pool.shared.sequence, seed)]⟩)[j]? =
      some other := (List.getElem?_set_ne different).trans foundOther
  have length := (first.2 _ (next_of_absent still absentOther)).1
  simp [Table.insert] at length

/-! ## Both tables -/

/-- The settings and the VM defaults stay singletons along every run in which
no call reads the empty table beside an open insertion. -/
theorem current_singleton (crypto : Crypto) (threads : Nat) (actions : List Nat) :
    (Throughout (next (Setting.seed crypto)) Alone (start Setting threads) actions →
      Always (next (Setting.seed crypto)) Single (start Setting threads) actions) ∧
    (Throughout (next VmDefault.seed) Alone (start VmDefault threads) actions →
      Always (next VmDefault.seed) Single (start VmDefault threads) actions) :=
  ⟨always_single (seeded_start Setting threads), always_single (seeded_start VmDefault threads)⟩

/-- One thread seeds the table before another one reads it. -/
theorem current_singleton_inTurn :
    Always (next (Setting.seed ⟨id, id, fun _ _ => true⟩)) Single (start Setting 2) [0, 0, 1] ∧
      Always (next VmDefault.seed) Single (start VmDefault 2) [0, 0, 1] :=
  ⟨(current_singleton ⟨id, id, fun _ _ => true⟩ 2 [0, 0, 1]).1 (by decide),
    (current_singleton ⟨id, id, fun _ _ => true⟩ 2 [0, 0, 1]).2 (by decide)⟩

/-- Two threads read the empty table before either of them inserts. -/
theorem both_insert :
    ¬ Always (next (Setting.seed ⟨id, id, fun _ _ => true⟩)) Single (start Setting 2)
        [0, 1, 0, 1] ∧
      ¬ Always (next VmDefault.seed) Single (start VmDefault 2) [0, 1, 0, 1] := by
  constructor
  · decide
  · decide

end Singletons

end MultipassWebui.Auth
