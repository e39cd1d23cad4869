import Mathlib.Data.List.Induction
import Orchestrator.Common.Json

/-!
# The exposed transaction

`orderedTransaction` of `intent.presenter.ts`: a JSONB column does not keep the order of keys, so
the presenter restores that of the builders.

* `fieldEntries`, `orderedTransaction`;
* **`orderedTransaction_same`**: only the order changes.
-/

namespace Orchestrator

/-- Builder field order. -/
def transactionFieldOrder : List String :=
  ["TransactionType", "Account", "Destination", "DeliverMax", "DestinationTag", "LimitAmount",
    "Flags", "Fee", "Sequence", "LastLedgerSequence", "NetworkID"]

/-- `Object.entries` of a value whose `typeof` is `object`; an array has its indices as keys. -/
def fieldEntries : Json → Option Record
  | .obj fields => some fields
  | .arr items => some (items.zipIdx.map fun item => (toString item.2, item.1))
  | _ => none

/-- The fields of `order` that `source` has. -/
def orderedFields (source : Record) (order : List String) : Record :=
  order.foldl (fun ordered field =>
    match source.get? field with
    | some value => ordered.set field value
    | none => ordered) []

/-- The entries whose keys are not there yet. -/
def addMissing (ordered source : Record) : Record :=
  source.foldl (fun ordered entry =>
    if ordered.has entry.1 then ordered else ordered.set entry.1 entry.2) ordered

def orderedTransaction (value : Json) : Option Record :=
  (fieldEntries value).map fun source =>
    addMissing (orderedFields source transactionFieldOrder) source

theorem get?_orderedFields (source : Record) (order : List String) (k : String) :
    (orderedFields source order).get? k = if k ∈ order then source.get? k else none := by
  induction order using List.reverseRecOn with
  | nil => rfl
  | append_singleton order field ih =>
    rw [orderedFields, List.foldl_append] at *
    simp only [List.foldl_cons, List.foldl_nil, List.mem_append, List.mem_singleton]
    cases hs : source.get? field with
    | none =>
      rw [ih]
      by_cases hk : k = field
      · simp [hk, hs]
      · simp [hk]
    | some value =>
      rw [Record.get?_set, ih]
      by_cases hk : k = field
      · simp [hk, hs]
      · simp [hk]

theorem get?_addMissing (ordered source : Record) (k : String) :
    (addMissing ordered source).get? k = (ordered.get? k).or (source.get? k) := by
  induction source generalizing ordered with
  | nil => simp [addMissing]
  | cons entry source ih =>
    obtain ⟨m, value⟩ := entry
    have hstep : addMissing ordered ((m, value) :: source) =
        addMissing (if ordered.has m then ordered else ordered.set m value) source := rfl
    rw [hstep, ih, Record.get?_cons]
    by_cases hm : m = k
    · subst hm
      cases ho : ordered.get? m <;> simp [Record.has, ho, Record.get?_set]
    · by_cases hh : ordered.has m = true
      · simp [hh, hm]
      · simp [hh, hm, Record.get?_set, Ne.symm hm]

/-- **The presenter changes the order of keys only.** -/
theorem orderedTransaction_same (source : Record) :
    ∃ ordered, orderedTransaction (.obj source) = some ordered ∧ ordered.Same source := by
  refine ⟨_, rfl, Record.same_of_get? fun k => ?_⟩
  rw [get?_addMissing, get?_orderedFields]
  split_ifs
  · cases source.get? k <;> rfl
  · rfl

end Orchestrator
