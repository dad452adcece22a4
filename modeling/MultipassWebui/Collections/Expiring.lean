import Mathlib.Order.Lattice
import Mathlib.Data.List.Basic

/-!
# Tables of expiring rows

A ledger holds every row that was granted and not withdrawn, and a table any
part of it that keeps the rows which have not expired.  Such a table may lose
expired rows at any time, and no question about rows that are alive tells it
from its ledger.
-/

namespace MultipassWebui.Collections

universe u v

variable {ρ : Type u} {τ : Type v} [LinearOrder τ]

/-- At the instant `now`, the table holds rows of the ledger only, and all
those that have not expired. -/
structure Covers (expires : ρ → τ) (now : τ) (table ledger : List ρ) : Prop where
  sound : ∀ row ∈ table, row ∈ ledger
  complete : ∀ row ∈ ledger, now < expires row → row ∈ table

namespace Covers

variable {expires : ρ → τ} {now : τ} {table ledger : List ρ}

theorem refl (expires : ρ → τ) (now : τ) (ledger : List ρ) : Covers expires now ledger ledger :=
  ⟨fun _ member => member, fun _ member _ => member⟩

theorem mem_iff (covers : Covers expires now table ledger) {row : ρ}
    (alive : now < expires row) : row ∈ table ↔ row ∈ ledger :=
  ⟨covers.sound row, fun member => covers.complete row member alive⟩

/-- Rows only expire as time goes by. -/
theorem later (covers : Covers expires now table ledger) {instant : τ} (order : now ≤ instant) :
    Covers expires instant table ledger :=
  ⟨covers.sound, fun row member alive => covers.complete row member (lt_of_le_of_lt order alive)⟩

/-- Deleting rows that have expired is not noticed. -/
theorem sweep (covers : Covers expires now table ledger) {kept : ρ → Bool}
    (keepsAlive : ∀ row ∈ table, now < expires row → kept row = true) :
    Covers expires now (table.filter kept) ledger := by
  constructor
  · intro row member
    exact covers.sound row (List.mem_of_mem_filter member)
  · intro row member alive
    have inTable := covers.complete row member alive
    exact List.mem_filter.mpr ⟨inTable, keepsAlive row inTable alive⟩

/-- A grant is entered in both. -/
theorem grant (covers : Covers expires now table ledger) (row : ρ) :
    Covers expires now (table ++ [row]) (ledger ++ [row]) := by
  constructor
  · intro other member
    rcases List.mem_append.mp member with old | new
    · exact List.mem_append_left _ (covers.sound other old)
    · exact List.mem_append_right _ new
  · intro other member alive
    rcases List.mem_append.mp member with old | new
    · exact List.mem_append_left _ (covers.complete other old alive)
    · exact List.mem_append_right _ new

/-- A withdrawal needs to agree on the rows that are alive. -/
theorem withdraw (covers : Covers expires now table ledger) {kept stays : ρ → Bool}
    (keptStays : ∀ row ∈ table, kept row = true → stays row = true)
    (staysKept : ∀ row ∈ table, now < expires row → stays row = true → kept row = true) :
    Covers expires now (table.filter kept) (ledger.filter stays) := by
  constructor
  · intro row member
    rcases List.mem_filter.mp member with ⟨inTable, isKept⟩
    exact List.mem_filter.mpr ⟨covers.sound row inTable, keptStays row inTable isKept⟩
  · intro row member alive
    rcases List.mem_filter.mp member with ⟨inLedger, isStaying⟩
    have inTable := covers.complete row inLedger alive
    exact List.mem_filter.mpr ⟨inTable, staysKept row inTable alive isStaying⟩

end Covers

end MultipassWebui.Collections
