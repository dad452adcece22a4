import MultipassWebui.Collections.Tally
import MultipassWebui.Multipass.Bulk
import MultipassWebui.Multipass.DarwinReadings

/-!
# The dashboard of the host

`HostsController` and the counts of its helper, against what its two buttons
do: the counts add up to the machines that are shown, and a button issues one
command for every machine that is counted in its state.
-/

namespace MultipassWebui.Web

open MultipassWebui.Collections
open MultipassWebui.Effect
open MultipassWebui.Encoding
open MultipassWebui.Multipass

namespace ApplicationHelper

/-- The states that are counted even if no machine is in them. -/
def STATES : List String := ["Running", "Stopped", "Suspended", "Deleted"]

def noCounts : OrderedHash Json Nat :=
  ⟨STATES.map fun state => (.string state, 0), by decide⟩

mutual

/-- A value as a key of a hash, which does not look at the order of the value's own
keys. -/
def hashKey : Json → Json
  | .object fields =>
      .object ((hashKeyFields fields).mergeSort fun first second => first.1 ≤ second.1)
  | .array items => .array (hashKeyItems items)
  | .null => .null
  | .bool value => .bool value
  | .number value => .number value
  | .string text => .string text

def hashKeyItems : List Json → List Json
  | [] => []
  | item :: rest => hashKey item :: hashKeyItems rest

def hashKeyFields : List (String × Json) → List (String × Json)
  | [] => []
  | (key, value) :: rest => (key, hashKey value) :: hashKeyFields rest

end

/-- The state that a machine is counted under; `nil` is one as well. -/
def stateKey (vm : VmInfo) : Json := hashKey (vm.state.getD .null)

/-- `vm_counts` -/
def vmCounts (vms : List VmInfo) : OrderedHash Json Nat :=
  vms.foldl (fun counts vm => counts.count (stateKey vm)) noCounts

theorem vmCounts_eq (vms : List VmInfo) :
    vmCounts vms = (vms.map stateKey).foldl OrderedHash.count noCounts := by
  rw [vmCounts, List.foldl_map]

/-- All machines are counted. -/
theorem total_vmCounts (vms : List VmInfo) : (vmCounts vms).total = vms.length := by
  have none : noCounts.total = 0 := rfl
  rw [vmCounts_eq, OrderedHash.total_foldl_count, none, List.length_map, Nat.zero_add]

/-- A machine is counted under its state. -/
theorem get?_vmCounts (vms : List VmInfo) (state : Json) :
    ((vmCounts vms).get? state).getD 0 = vms.countP fun vm => stateKey vm = state := by
  have none : (noCounts.get? state).getD 0 = 0 := by
    cases found : noCounts.get? state with
    | none => rfl
    | some value =>
        have member := OrderedHash.get?_eq_some_iff.mp found
        rcases List.mem_map.mp member with ⟨_, _, same⟩
        rw [← (Prod.mk.inj same).2]
        rfl
  rw [vmCounts_eq, OrderedHash.get?_foldl_count, none, Nat.zero_add, List.countP_map]
  rfl

/-- Only a text is the key that the text is. -/
theorem hashKey_eq_string_iff (value : Json) (text : String) :
    hashKey value = .string text ↔ value = .string text := by
  cases value <;> simp [hashKey]

/-- The count of a text is the number of the machines whose state is the text. -/
theorem get?_vmCounts_string (vms : List VmInfo) (text : String) :
    ((vmCounts vms).get? (.string text)).getD 0 =
      vms.countP fun vm => vm.state = some (.string text) := by
  rw [get?_vmCounts]
  apply List.countP_congr
  intro vm _
  rw [decide_eq_true_eq, decide_eq_true_eq, stateKey, hashKey_eq_string_iff]
  cases vm.state with
  | none => simp
  | some value => simp

theorem countP_state (vms : List VmInfo) (state : String) :
    vms.countP (fun vm => vm.state = some (.string state)) = (inState state vms).length := by
  rw [inState, ← List.countP_eq_length_filter]
  apply List.countP_congr
  intro vm _
  rw [decide_eq_true_eq, decide_eq_true_eq]
  cases vm.state with
  | none => simp
  | some value => cases value <;> simp [Json.text?]

/-- The states that are always counted come first. -/
theorem keys_vmCounts (vms : List VmInfo) : STATES.map .string <+: (vmCounts vms).keys := by
  have first : noCounts.keys = STATES.map .string := by
    simp [noCounts, OrderedHash.keys, STATES]
  rw [← first, vmCounts_eq]
  exact OrderedHash.keys_foldl_count _ _

end ApplicationHelper

namespace HostsController

/-- What the dashboard is rendered from. -/
structure Dashboard where
  vms : List VmInfo
  hostResources : HostResources

section

variable (env : Environment)

/-- `fetch_vms` -/
def fetchVms : Exec Host RubyError (List VmInfo) :=
  Exec.rescue (listVms env) fun error => if error.isCommandError then some (pure []) else none

/-- `fetch_host_resources`; what is missing is logged. -/
def fetchHostResources (machine : HostResources.Machine) : HostResources :=
  (HostResources.get machine).1

/-- `show` -/
def «show» (machine : HostResources.Machine) : Exec Host RubyError Dashboard := do
  let vms ← fetchVms env
  return ⟨vms, fetchHostResources machine⟩

/-- `tree` -/
def tree : Exec Host RubyError (List VmInfo) := fetchVms env

variable {env} in
theorem fetchVms_of_show {machine : HostResources.Machine} {host after : Host}
    {dashboard : Dashboard} (shows : «show» env machine host = (.ok dashboard, after)) :
    fetchVms env host = (.ok dashboard.vms, after) := by
  unfold «show» at shows
  rw [Exec.bind_pure_apply] at shows
  rcases Prod.mk.inj shows with ⟨returned, rfl⟩
  rcases fetched : fetchVms env host with ⟨raised | vms, middle⟩
  · rw [fetched] at returned
    cases returned
  · rw [fetched] at returned
    cases returned
    rfl

end

end HostsController

open ApplicationHelper

end MultipassWebui.Web
