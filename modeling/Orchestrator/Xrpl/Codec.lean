import Orchestrator.Common.Platform

/-!
# The codec boundary

`codec.ts`: a prepared transaction carries `DeliverMax`, the binary codec knows only `Amount`, so
every codec operation goes through the canonical form.

* `networkIdField`, `toCanonicalForm`, `validateTransaction`, `encodeTransaction`;
* `toCanonicalForm_same`, `encodeTransaction_same`: reading a transaction back from a JSONB column
  changes neither its canonical form nor its blob.
-/

namespace Orchestrator

/-- Maximum network id without a `NetworkID` field. -/
def networkIdFieldThreshold : ℕ := 1024

def networkIdField (networkId : ℕ) : Record :=
  if networkId > networkIdFieldThreshold then [("NetworkID", .num networkId)] else []

def toCanonicalForm (transaction : Record) : Except String Record :=
  if transaction.get? "TransactionType" ≠ some (.str "Payment") then .ok transaction
  else match transaction.get? "DeliverMax" with
    | none => .ok transaction
    | some deliverMax =>
      let rest := transaction.remove "DeliverMax"
      match rest.get? "Amount" with
      | some amount =>
        if sameText amount deliverMax then .ok (rest.set "Amount" deliverMax)
        else .error "Payment has both Amount and DeliverMax with different values"
      | none => .ok (rest.set "Amount" deliverMax)

variable (P : Platform)

def validateTransaction (transaction : Record) : Except String Unit :=
  toCanonicalForm transaction >>= P.validate

/-- Uppercase hex serialization of the canonical form. -/
def encodeTransaction (transaction : Record) : Except String String :=
  toCanonicalForm transaction >>= fun canonical => (P.encode canonical).map P.toUpperCase

variable {P}

/-- The lookups of the canonical form of a payment without an `Amount`. -/
theorem get?_canonical {r : Record} (d : Json) (k : String) :
    ((r.remove "DeliverMax").set "Amount" d).get? k =
      if k = "Amount" then some d else if k = "DeliverMax" then none else r.get? k := by
  rw [Record.get?_set, Record.get?_remove]

theorem encodeTransaction_ok {t : Record} {blob : String}
    (h : encodeTransaction P t = .ok blob) : ∃ canonical b, toCanonicalForm t = .ok canonical ∧
      P.encode canonical = .ok b ∧ P.toUpperCase b = blob := by
  unfold encodeTransaction at h
  cases hc : toCanonicalForm t with
  | error message => cases (congrArg (· >>= _) hc).symm.trans h
  | ok canonical =>
    rw [hc] at h
    change (P.encode canonical).map P.toUpperCase = .ok blob at h
    cases he : P.encode canonical with
    | error message => cases (congrArg (Except.map P.toUpperCase) he).symm.trans h
    | ok b =>
      rw [he] at h
      exact ⟨canonical, b, rfl, he, Except.ok.inj h⟩

/-- The only error of the canonical form. -/
theorem toCanonicalForm_error {t : Record} {message : String}
    (h : toCanonicalForm t = .error message) :
    message = "Payment has both Amount and DeliverMax with different values" := by
  unfold toCanonicalForm at h
  split_ifs at h
  split at h
  · cases h
  · dsimp only at h
    split at h
    · split_ifs at h
      exact (Except.error.inj h).symm
    · cases h

/-- The canonical form has no key of its own but `Amount`. -/
theorem toCanonicalForm_get_none {t c : Record} (h : toCanonicalForm t = .ok c) {k : String}
    (hk : k ≠ "Amount") (ht : t.get? k = none) : c.get? k = none := by
  have hset (d : Json) : ((t.remove "DeliverMax").set "Amount" d).get? k = none := by
    rw [get?_canonical, if_neg hk]
    split_ifs
    · rfl
    · exact ht
  unfold toCanonicalForm at h
  split_ifs at h
  · cases h
    exact ht
  · split at h
    · cases h
      exact ht
    · dsimp only at h
      split at h
      · split_ifs at h
        cases h
        exact hset _
      · cases h
        exact hset _

/-- **The canonical form does not depend on the order of keys.** -/
theorem toCanonicalForm_same {t t' : Record} (h : t.Same t') (hA : t.get? "Amount" = none) :
    ∃ c c', toCanonicalForm t = .ok c ∧ toCanonicalForm t' = .ok c' ∧ c.Same c' := by
  have hA' : t'.get? "Amount" = none := h.get_none hA
  by_cases hp : t.get? "TransactionType" = some (.str "Payment")
  · have hp' := h.get_str hp
    cases hd : t.get? "DeliverMax" with
    | none =>
      exact ⟨t, t', by simp [toCanonicalForm, hp, hd],
        by simp [toCanonicalForm, hp', h.get_none hd], h⟩
    | some d =>
      obtain ⟨d', hd', hdd⟩ := h.get hd
      have hr : (t.remove "DeliverMax").get? "Amount" = none := by
        rw [Record.get?_remove, hA]; simp
      have hr' : (t'.remove "DeliverMax").get? "Amount" = none := by
        rw [Record.get?_remove, hA']; simp
      refine ⟨(t.remove "DeliverMax").set "Amount" d, (t'.remove "DeliverMax").set "Amount" d',
        by simp [toCanonicalForm, hp, hd, hr], by simp [toCanonicalForm, hp', hd', hr'], ?_⟩
      refine .obj (fun k => ?_) fun k x y hx hy => ?_
      · simp only [get?_canonical]
        split_ifs
        · rfl
        · rfl
        · exact h.isSome k
      · simp only [get?_canonical] at hx hy
        split_ifs at hx hy
        · cases hx; cases hy; exact hdd
        · obtain ⟨z, hz, hxz⟩ := h.get hx
          rw [hy] at hz
          cases hz
          exact hxz
  · have hp' : t'.get? "TransactionType" ≠ some (.str "Payment") := by
      intro hq
      cases ht : t.get? "TransactionType" with
      | none => rw [h.get_none ht] at hq; cases hq
      | some x =>
        obtain ⟨y, hy, hxy⟩ := h.get ht
        rw [hq] at hy
        cases hy
        cases hxy
        exact hp ht
    exact ⟨t, t', by simp [toCanonicalForm, hp], by simp [toCanonicalForm, hp'], h⟩

/-- **The blob does not depend on the order of keys.** -/
theorem encodeTransaction_same (hP : P.EncodeByKey) {t t' : Record} (h : t.Same t')
    (hA : t.get? "Amount" = none) : encodeTransaction P t = encodeTransaction P t' := by
  obtain ⟨c, c', hc, hc', hs⟩ := toCanonicalForm_same h hA
  simp only [encodeTransaction, hc, hc']
  exact congrArg (Except.map P.toUpperCase) (hP c c' hs)

end Orchestrator
