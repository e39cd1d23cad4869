import Orchestrator.Common.Json

/-!
# What the code uses and does not contain

The functions of the `xrpl` package, the messages of `class-transformer` and `class-validator`,
SHA-256, JavaScript's `toUpperCase` and what a JSONB column gives back are parameters of the model.
A result that rests on their documented behaviour names it as a hypothesis.
-/

namespace Orchestrator

/-- The third-party functions. A function that can throw returns the message of its error. -/
structure Platform where
  encode : Record → Except String String
  decode : String → Except String Record
  encodeForSigning : Record → Except String String
  verifyKeypairSignature : String → String → String → Except String Bool
  hashSignedTx : String → Except String String
  validate : Record → Except String Unit
  deriveAddress : String → Except String String
  isValidClassicAddress : String → Bool
  constraintMessages : Json → String
  toUpperCase : String → String
  sha256 : String → String
  jsonb : Json → Json

namespace Platform

/-- A JSONB column preserves values, not the order of keys. -/
def JsonbPreserves (P : Platform) : Prop := ∀ j : Json, j.Same (P.jsonb j)

/-- `encode` reads an object by its keys, whatever their order. -/
def EncodeByKey (P : Platform) : Prop := ∀ r r' : Record, r.Same r' → P.encode r = P.encode r'

end Platform

/-- `s.startsWith(p)`. -/
def startsWith (s p : String) : Bool := p.toList.isPrefixOf s.toList

/-- `/^[A-F0-9]{64}$/`. -/
def isHash (s : String) : Bool :=
  s.toList.length == 64 && s.toList.all fun c => ('A' ≤ c && c ≤ 'F') || ('0' ≤ c && c ≤ '9')

end Orchestrator
