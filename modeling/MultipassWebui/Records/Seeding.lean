import Mathlib.Data.List.Forall2
import Mathlib.Data.List.Nodup
import MultipassWebui.Records.Table

/-!
# Seeding a table with find-or-create

A list of entries is folded into a table: an entry whose key is found leaves the
table alone, and any other one appends the row that is built from it.  The
first entry of a key wins, and a second pass over the same entries finds every
key.
-/

namespace MultipassWebui.Records

universe u

/-- How the entries of a list become rows of a table. -/
structure Seeding (α ρ ε : Type) where
  /-- The key that an entry is looked up by; `none` finds nothing. -/
  lookup : α → Except ε (Option String)
  /-- The row for an entry, given the rows that are there. -/
  build : α → List ρ → Except ε ρ
  key : ρ → String

namespace Seeding

variable {α ρ ε : Type} (seeding : Seeding α ρ ε)

/-- A row of the table has the key. -/
def found (rows : List ρ) (key : Option String) : Bool :=
  rows.any fun row => some (seeding.key row) = key

/-- `find_or_create_by!` -/
def findOrCreate (entry : α) (table : Table ρ) : Except ε (Table ρ) := do
  let key ← seeding.lookup entry
  if seeding.found table.values key then return table
  else return table.insert (← seeding.build entry table.values)

/-- `each { … find_or_create_by! … }` -/
def seed : List α → Table ρ → Except ε (Table ρ)
  | [], table => .ok table
  | entry :: rest, table => do
      let middle ← seeding.findOrCreate entry table
      seed rest middle

/-- A row has the key that its entry is looked up by. -/
def Keyed : Prop :=
  ∀ entry rows row, seeding.build entry rows = .ok row →
    seeding.lookup entry = .ok (some (seeding.key row))

/-- Every entry has a key, and a row of the table has it. -/
def Covered (entries : List α) (table : Table ρ) : Prop :=
  ∀ entry ∈ entries, ∃ row ∈ table.values,
    seeding.lookup entry = .ok (some (seeding.key row))

section Passes

variable {seeding} {entry : α} {entries : List α} {table after : Table ρ}

theorem found_iff {rows : List ρ} {key : Option String} :
    seeding.found rows key = true ↔ ∃ row ∈ rows, some (seeding.key row) = key := by
  simp [found]

/-- An entry finds a row with its key, or builds the one that is appended. -/
theorem findOrCreate_eq_ok_iff :
    seeding.findOrCreate entry table = .ok after ↔
      ∃ key, seeding.lookup entry = .ok key ∧
        ((seeding.found table.values key = true ∧ after = table) ∨
          (seeding.found table.values key = false ∧
            ∃ row, seeding.build entry table.values = .ok row ∧ after = table.insert row)) := by
  unfold findOrCreate
  cases looked : seeding.lookup entry with
  | error raised => simp [bind, Except.bind]
  | ok key =>
      cases isFound : seeding.found table.values key with
      | true => simp [bind, Except.bind, pure, Except.pure, isFound, eq_comm (a := after)]
      | false =>
          cases built : seeding.build entry table.values with
          | error raised => simp [bind, Except.bind, isFound]
          | ok row =>
              simp [bind, Except.bind, pure, Except.pure, isFound, eq_comm (a := after)]

theorem seed_cons_eq_ok_iff :
    seeding.seed (entry :: entries) table = .ok after ↔
      ∃ middle, seeding.findOrCreate entry table = .ok middle ∧
        seeding.seed entries middle = .ok after := by
  rw [seed]
  cases seeding.findOrCreate entry table with
  | error raised => simp [bind, Except.bind]
  | ok middle => simp [bind, Except.bind]

/-- Rows are only appended. -/
theorem values_findOrCreate (created : seeding.findOrCreate entry table = .ok after) :
    ∃ new, after.values = table.values ++ new := by
  rw [findOrCreate_eq_ok_iff] at created
  rcases created with ⟨key, _, ⟨_, rfl⟩ | ⟨_, row, _, rfl⟩⟩
  · exact ⟨[], (List.append_nil _).symm⟩
  · exact ⟨[row], Table.values_insert table row⟩

theorem values_seed (seeded : seeding.seed entries table = .ok after) :
    ∃ new, after.values = table.values ++ new := by
  induction entries generalizing table with
  | nil =>
      cases seeded
      exact ⟨[], (List.append_nil _).symm⟩
  | cons entry rest ih =>
      rw [seed_cons_eq_ok_iff] at seeded
      rcases seeded with ⟨middle, created, later⟩
      rcases values_findOrCreate created with ⟨first, middleValues⟩
      rcases ih later with ⟨others, afterValues⟩
      exact ⟨first ++ others, by rw [afterValues, middleValues, List.append_assoc]⟩

theorem mem_values_seed (seeded : seeding.seed entries table = .ok after) {row : ρ}
    (member : row ∈ table.values) : row ∈ after.values := by
  rcases values_seed seeded with ⟨new, values⟩
  rw [values]
  exact List.mem_append_left _ member

/-- A covered table stays covered when rows are appended. -/
theorem Covered.mono (covered : seeding.Covered entries table)
    (kept : ∀ row ∈ table.values, row ∈ after.values) : seeding.Covered entries after := by
  intro entry member
  rcases covered entry member with ⟨row, isRow, looked⟩
  exact ⟨row, kept row isRow, looked⟩

theorem covered_findOrCreate (keyed : seeding.Keyed)
    (created : seeding.findOrCreate entry table = .ok after) :
    ∃ row ∈ after.values, seeding.lookup entry = .ok (some (seeding.key row)) := by
  rw [findOrCreate_eq_ok_iff] at created
  rcases created with ⟨key, looked, ⟨isFound, rfl⟩ | ⟨_, row, built, rfl⟩⟩
  · rw [found_iff] at isFound
    rcases isFound with ⟨row, member, rfl⟩
    exact ⟨row, member, looked⟩
  · exact ⟨row, by simp, keyed entry _ row built⟩

/-- A pass covers its entries. -/
theorem covered_seed (keyed : seeding.Keyed) (seeded : seeding.seed entries table = .ok after) :
    seeding.Covered entries after := by
  induction entries generalizing table with
  | nil =>
      intro entry member
      cases member
  | cons entry rest ih =>
      rw [seed_cons_eq_ok_iff] at seeded
      rcases seeded with ⟨middle, created, later⟩
      intro other member
      rcases List.mem_cons.mp member with rfl | inRest
      · rcases covered_findOrCreate keyed created with ⟨row, isRow, looked⟩
        exact ⟨row, mem_values_seed later isRow, looked⟩
      · exact ih later other inRest

/-- A pass over entries that are covered changes nothing. -/
theorem seed_of_covered (covered : seeding.Covered entries table) :
    seeding.seed entries table = .ok table := by
  induction entries with
  | nil => rfl
  | cons entry rest ih =>
      rcases covered entry List.mem_cons_self with ⟨row, member, looked⟩
      have isFound : seeding.found table.values (some (seeding.key row)) = true := by
        rw [found_iff]
        exact ⟨row, member, rfl⟩
      rw [seed_cons_eq_ok_iff]
      refine ⟨table, ?_, ?_⟩
      · rw [findOrCreate_eq_ok_iff]
        exact ⟨_, looked, Or.inl ⟨isFound, rfl⟩⟩
      · exact ih fun other inRest => covered other (List.mem_cons_of_mem _ inRest)

/-- A row was there before, or was built from one of the entries. -/
theorem origin_of_mem (seeded : seeding.seed entries table = .ok after) {row : ρ}
    (member : row ∈ after.values) :
    row ∈ table.values ∨ ∃ entry ∈ entries, ∃ rows, seeding.build entry rows = .ok row := by
  induction entries generalizing table with
  | nil =>
      cases seeded
      exact Or.inl member
  | cons entry rest ih =>
      rw [seed_cons_eq_ok_iff] at seeded
      rcases seeded with ⟨middle, created, later⟩
      rcases ih later with inMiddle | ⟨other, inRest, rows, built⟩
      · rw [findOrCreate_eq_ok_iff] at created
        rcases created with
          ⟨key, _, ⟨_, rfl⟩ | ⟨_, new, built, rfl⟩⟩
        · exact Or.inl inMiddle
        · rw [Table.values_insert] at inMiddle
          rcases List.mem_append.mp inMiddle with old | isNew
          · exact Or.inl old
          · rw [List.mem_singleton] at isNew
            subst isNew
            exact Or.inr ⟨entry, List.mem_cons_self, _, built⟩
      · exact Or.inr ⟨other, List.mem_cons_of_mem _ inRest, rows, built⟩

/-- A key that is not found is the key of no row. -/
theorem not_mem_of_not_found {row : ρ}
    (notFound : seeding.found table.values (some (seeding.key row)) = false) :
    seeding.key row ∉ table.values.map seeding.key := by
  intro seen
  rcases List.mem_map.mp seen with ⟨old, member, sameKey⟩
  have isFound : seeding.found table.values (some (seeding.key row)) = true := by
    rw [found_iff]
    exact ⟨old, member, congrArg some sameKey⟩
  rw [isFound] at notFound
  cases notFound

/-- Keys that are distinct stay so. -/
theorem nodup_seed (keyed : seeding.Keyed) (seeded : seeding.seed entries table = .ok after)
    (distinct : (table.values.map seeding.key).Nodup) :
    (after.values.map seeding.key).Nodup := by
  induction entries generalizing table with
  | nil =>
      cases seeded
      exact distinct
  | cons entry rest ih =>
      rw [seed_cons_eq_ok_iff] at seeded
      rcases seeded with ⟨middle, created, later⟩
      apply ih later
      rw [findOrCreate_eq_ok_iff] at created
      rcases created with
        ⟨key, looked, ⟨_, rfl⟩ | ⟨notFound, row, built, rfl⟩⟩
      · exact distinct
      · have isKey := keyed entry _ row built
        rw [looked] at isKey
        cases isKey
        rw [Table.values_insert, List.map_append]
        refine List.Nodup.append distinct (List.nodup_singleton _) ?_
        intro other old new
        rw [List.map_singleton, List.mem_singleton] at new
        rw [new] at old
        exact not_mem_of_not_found notFound old

/-- A key that is not in the table gets the row of its first entry. -/
theorem exists_row_of_first (keyed : seeding.Keyed)
    (seeded : seeding.seed entries table = .ok after) {key : String} {first : α}
    (isFirst : entries.find? (fun entry => decide
      ((seeding.lookup entry).toOption = some (some key))) = some first)
    (absent : key ∉ table.values.map seeding.key) :
    ∃ row ∈ after.values, seeding.key row = key ∧ ∃ rows, seeding.build first rows = .ok row := by
  induction entries generalizing table with
  | nil => cases isFirst
  | cons entry rest ih =>
      rw [seed_cons_eq_ok_iff] at seeded
      rcases seeded with ⟨middle, created, later⟩
      rw [findOrCreate_eq_ok_iff] at created
      rcases created with ⟨looked, isLooked, outcome⟩
      by_cases here : looked = some key
      · rw [List.find?_cons_of_pos (by simp [isLooked, here, Except.toOption])] at isFirst
        cases isFirst
        subst here
        rcases outcome with ⟨isFound, _⟩ | ⟨_, row, built, rfl⟩
        · rw [found_iff] at isFound
          rcases isFound with ⟨old, member, sameKey⟩
          exact absurd (List.mem_map.mpr ⟨old, member, Option.some.inj sameKey⟩) absent
        · have isKey := keyed _ _ row built
          rw [isLooked] at isKey
          cases isKey
          exact ⟨row, mem_values_seed later (by simp), rfl, _, built⟩
      · rw [List.find?_cons_of_neg (by simp [isLooked, here, Except.toOption])] at isFirst
        apply ih later isFirst
        rcases outcome with ⟨_, rfl⟩ | ⟨_, row, built, rfl⟩
        · exact absent
        · have isKey := keyed entry _ row built
          rw [isLooked] at isKey
          cases isKey
          rw [Table.values_insert, List.map_append]
          intro seen
          rcases List.mem_append.mp seen with old | new
          · exact absent old
          · rw [List.map_singleton, List.mem_singleton] at new
            exact here (congrArg some new.symm)

end Passes

/-! ## The first entry of a key -/

/-- The entries whose key is not among those seen before. -/
def firsts (keyOf : α → Option String) (seen : List String) : List α → List α
  | [] => []
  | entry :: rest =>
      match keyOf entry with
      | some key =>
          if key ∈ seen then firsts keyOf seen rest
          else entry :: firsts keyOf (seen ++ [key]) rest
      | none => entry :: firsts keyOf seen rest

section Firsts

variable {seeding} {entries : List α} {table after : Table ρ}

/-- A pass appends the rows of the entries that are the first of their key, as
long as what is built does not depend on the rows that are there. -/
theorem forall₂_firsts (keyed : seeding.Keyed) {keyOf : α → Option String}
    (looks : ∀ entry key, seeding.lookup entry = .ok key → keyOf entry = key)
    {row : α → ρ → Prop}
    (same : ∀ entry rows built, seeding.build entry rows = .ok built → row entry built)
    (seeded : seeding.seed entries table = .ok after) :
    ∃ new, after.values = table.values ++ new ∧
      List.Forall₂ row (firsts keyOf (table.values.map seeding.key) entries) new := by
  induction entries generalizing table with
  | nil =>
      cases seeded
      exact ⟨[], (List.append_nil _).symm, List.Forall₂.nil⟩
  | cons entry rest ih =>
      rw [seed_cons_eq_ok_iff] at seeded
      rcases seeded with ⟨middle, created, later⟩
      rw [findOrCreate_eq_ok_iff] at created
      rcases created with
        ⟨key, looked, ⟨isFound, rfl⟩ | ⟨notFound, built, isBuilt, rfl⟩⟩
      · rw [found_iff] at isFound
        rcases isFound with ⟨old, member, rfl⟩
        have seen : seeding.key old ∈ middle.values.map seeding.key :=
          List.mem_map.mpr ⟨old, member, rfl⟩
        rw [firsts, looks entry _ looked]
        simp only [seen, if_true]
        exact ih later
      · have isKey := keyed entry _ built isBuilt
        rw [looked] at isKey
        cases isKey
        have unseen := not_mem_of_not_found notFound
        rcases ih later with ⟨others, values, rows⟩
        refine ⟨built :: others, ?_, ?_⟩
        · rw [values, Table.values_insert, List.append_assoc]
          rfl
        · rw [Table.values_insert, List.map_append] at rows
          rw [firsts, looks entry _ looked]
          simp only [unseen, if_false]
          exact List.Forall₂.cons (same entry _ built isBuilt) rows

end Firsts

end Seeding

end MultipassWebui.Records
