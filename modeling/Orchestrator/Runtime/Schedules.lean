import Orchestrator.Interleave.Schedule
import Orchestrator.Runtime.System

/-!
# Schedules of the service

The runner of the system, and a small world to run it in: a codec that knows a transaction by its
Sequence, two accounts, and the turns of undisturbed calls, from which schedules are put together.

* `runner`, `reach_of_play`, `exists_of_play`, `exists_runs_of_play`: schedules are runs;
* `Sample.platform`, with `Sample.encodeByKey` and `Sample.jsonbPreserves`;
* `Sample.created`, `Sample.prepared`, `Sample.signed`: the turns of undisturbed calls.
-/

namespace Orchestrator

open Interleave

/-- The outside as functions: answers and times, the next ledger, the network id after a restart. -/
def runner (P : Platform) : Runner (system P) Choice Ledger ℕ where
  perform := perform P
  exec h := ⟨_, h⟩
  move s ledger := { s with chain := s.chain ++ [ledger] }
  env _ ledger := ⟨ledger, rfl⟩
  reboot s networkId := { s with recovered := false, degraded := false, networkId }
  restart _ networkId := ⟨networkId, rfl⟩

abbrev Schedule := List (Turn Call Choice Ledger ℕ)

abbrev Sys := Config Op Op.Ret Failure Reply Call State

/-- The service before its first call, on a given chain. -/
def fresh (chain : List Ledger) : Sys :=
  ⟨⟨⟨⟨[], []⟩, false, false, 0, chain⟩, []⟩, [], 0⟩

instance (k : Sys) (a : Act Op Op.Ret Failure Reply Call) (k' : Sys) :
    Decidable (anyStep k a k') := isTrue trivial

section

variable (P : Platform) (ok : StepCond Op Op.Ret Failure Reply Call State)
  [∀ k a k', Decidable (ok k a k')]

/-- The configuration a schedule leads to. -/
def playFrom (chain : List Ledger) (turns : Schedule) : Option Sys :=
  (runner P).play ok (fresh chain) turns

variable {P ok}

theorem reach_of_play {chain : List Ledger} {turns : Schedule} {k : Sys}
    (h : playFrom P ok chain turns = some k) : Reach (system P) ok k :=
  (runner P).play_reach ok (s := ⟨⟨[], []⟩, false, false, 0, chain⟩) ⟨rfl, rfl⟩ h

variable (P ok)

/-- A schedule that leads to a configuration with a decided property. -/
theorem exists_of_play (chain : List Ledger) (turns : Schedule) (φ : Sys → Bool)
    (h : (playFrom P ok chain turns).any φ = true) :
    ∃ k, playFrom P ok chain turns = some k ∧ Reach (system P) ok k ∧ φ k = true := by
  obtain ⟨k, hk, hφ⟩ := (Option.any_eq_true _ _).mp h
  exact ⟨k, hk, reach_of_play hk, hφ⟩

/-- Two schedules, the second from where the first has led to. -/
theorem exists_runs_of_play (chain : List Ledger) (first second : Schedule) (φ : Sys → Sys → Bool)
    (h : ((playFrom P ok chain first).any fun k =>
      ((runner P).play ok k second).any fun k' => φ k k') = true) :
    ∃ k k', Reach (system P) ok k ∧ Runs (system P) ok k k' ∧ φ k k' = true := by
  obtain ⟨k, -, hk, hφ⟩ := exists_of_play P ok _ _ _ h
  obtain ⟨k', hk', hφ⟩ := (Option.any_eq_true _ _).mp hφ
  exact ⟨k, k', hk, (runner P).play_runs ok hk', hφ⟩

/-- A schedule whose last turn, if taken, is a decided step. -/
theorem exists_step_of_play (chain : List Ledger) (turns : Schedule)
    (turn : Turn Call Choice Ledger ℕ) (φ : Sys → Act Op Op.Ret Failure Reply Call → Sys → Bool)
    (h : ((playFrom P ok chain turns).any fun k =>
      ((runner P).turn k turn).any fun step => φ k step.1 step.2) = true) :
    ∃ k a k', Reach (system P) ok k ∧ Step (system P) k a k' ∧ φ k a k' = true := by
  obtain ⟨k, hk, -, hφ⟩ := exists_of_play P ok _ _ _ h
  obtain ⟨⟨a, k'⟩, ht, hφ⟩ := (Option.any_eq_true _ _).mp hφ
  exact ⟨k, a, k', reach_of_play hk, (runner P).turn_step ht, hφ⟩

end

/-! ## A small world -/

namespace Sample

/-- The id, in the place of a hash, of the transaction with Sequence 5 or 6. -/
def hash (n : ℕ) : String := String.ofList (List.replicate 63 '0' ++ [Nat.digitChar n])

def encode (r : Record) : Except String String :=
  match r.get? "Sequence" with
  | some (.num n) => if n = 5 then .ok "05" else if n = 6 then .ok "06" else .error "Sequence"
  | _ => .error "Sequence"

def decode (blob : String) : Except String Record :=
  let signed (n : ℕ) : Record :=
    [("Sequence", .num n), ("SigningPubKey", .str "ED01"), ("TxnSignature", .str "AB")]
  if blob = "05" then .ok [("Sequence", .num 5)]
  else if blob = "06" then .ok [("Sequence", .num 6)]
  else if blob = "05AB" then .ok (signed 5)
  else if blob = "06AB" then .ok (signed 6)
  else .error "unknown blob"

/-- A platform on which a transaction is known by its Sequence. -/
def platform : Platform where
  encode := encode
  decode := decode
  encodeForSigning _ := .ok ""
  verifyKeypairSignature _ _ _ := .ok true
  hashSignedTx blob := .ok (hash (if blob = "05AB" then 5 else 6))
  validate _ := .ok ()
  deriveAddress _ := .ok "rA"
  isValidClassicAddress _ := true
  constraintMessages _ := ""
  toUpperCase := id
  sha256 _ := hash 0
  jsonb := id

theorem jsonbPreserves : platform.JsonbPreserves := fun j => .refl j

theorem encodeByKey : platform.EncodeByKey := by
  intro r r' h
  change encode r = encode r'
  unfold encode
  cases hr : r.get? "Sequence" with
  | none => rw [h.get_none hr]
  | some x =>
    obtain ⟨y, hy, hxy⟩ := h.get hr
    rw [hy]
    cases hxy <;> rfl

/-! ### Answers -/

def ledgerAnswer (n : ℕ) : Record := [("ledger_index", .num n), ("validated", .bool true)]

def accountAnswer (sequence n : ℕ) : Record :=
  [("account_data", .obj [("Sequence", .num sequence)]), ("ledger_index", .num n),
    ("validated", .bool true)]

def feeAnswer : Record := [("drops", .obj [("open_ledger_fee", .str "10")])]

def engineAnswer (engineResult : String) : Record := [("engine_result", .str engineResult)]

def simulateAnswer (sequence : ℕ) : Record :=
  engineAnswer "tesSUCCESS" ++ [("tx_json", .obj [("Sequence", .num sequence)])]

def foundAnswer (sequence n : ℕ) : Record :=
  [("hash", .str (hash sequence)), ("validated", .bool true), ("ledger_index", .num n),
    ("meta", .obj [("TransactionResult", .str "tesSUCCESS")])]

/-! ### Turns -/

/-- `n` operations of call `pid` that need nothing from the outside but the time. -/
def tick (pid n : ℕ) : Schedule := List.replicate n (.op pid (.time 1))

/-- A request of call `pid` and its answer. -/
def told (pid : ℕ) (answer : Record) : Schedule :=
  [.op pid (.time 1), .op pid (.answer (.ok (.ok answer)))]

/-- A finality cycle at ledger `n` that finds no active intent. -/
def recovered (pid n : ℕ) : Schedule :=
  [.start .cycle] ++ told pid (ledgerAnswer n) ++ tick pid 2 ++ [.finish pid]

def dto : CreateIntentDto := .payment "rA" "rB" (.xrp "1") none

def created (pid : ℕ) (id : String) : Schedule :=
  [.start (.create id dto)] ++ tick pid 1 ++ [.op pid (.uuid id)] ++ tick pid 2 ++ [.finish pid]

/-- The requests of `prepareCreated` up to its transition. -/
def gathered (pid sequence n : ℕ) : Schedule :=
  tick pid 1 ++ told pid (accountAnswer sequence n) ++ told pid (accountAnswer sequence n) ++
    told pid (ledgerAnswer n) ++ told pid feeAnswer ++ tick pid 2

/-- What is left of a `prepare` from `PREPARED` on. -/
def simulated (pid sequence n : ℕ) : Schedule :=
  tick pid 1 ++ told pid (ledgerAnswer n) ++ told pid (simulateAnswer sequence) ++ tick pid 3 ++
    [.finish pid]

def prepared (pid : ℕ) (id : String) (sequence n : ℕ) : Schedule :=
  [.start (.prepare id)] ++ tick pid 1 ++ gathered pid sequence n ++ tick pid 1 ++
    simulated pid sequence n

def signed (pid : ℕ) (id txBlob : String) (sequence n : ℕ) : Schedule :=
  [.start (.attachSignature id txBlob)] ++ tick pid 2 ++ told pid (accountAnswer sequence n) ++
    tick pid 2 ++ [.finish pid]

/-- A cycle at ledger `n`, up to the answer to its first `tx` request. -/
def searched (pid n : ℕ) (answer : Record) : Schedule :=
  [.start .cycle] ++ told pid (ledgerAnswer n) ++ tick pid 1 ++ told pid answer

/-- A submission of `i5` at ledger `n`, up to the answer to it, with `m` operations before its
request: the baseline if there is none, the time, the request. -/
def submitting (pid n m : ℕ) (engineResult : String) : Schedule :=
  [.start (.submit "i5")] ++ tick pid 2 ++ told pid (ledgerAnswer n) ++ tick pid m ++
    [.op pid (.answer (.ok (.ok (engineAnswer engineResult))))]

/-- A submission that is recorded and returns. -/
def submitted (pid n m : ℕ) (engineResult : String) : Schedule :=
  submitting pid n m engineResult ++ tick pid 1 ++ [.finish pid]

/-- Recovery, creation, preparation and signature of intent `i5`, by calls 0 to 3. -/
def signedIntent (n : ℕ) : Schedule :=
  recovered 0 n ++ created 1 "i5" ++ prepared 2 "i5" 5 n ++ signed 3 "i5" "05AB" 5 n

end Sample

end Orchestrator
