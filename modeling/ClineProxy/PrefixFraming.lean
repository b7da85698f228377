import ClineProxy.Framing
import ClineProxy.JsonText
import ClineProxy.PromptCache

/-! The bytes that the hash of a request's stable prefix is taken of. -/

namespace ClineProxy

open Json Framing

def sectionNames : List String := ["system", "messages", "tools"]

/-- The bytes of a section that the request has; `toVec` is the serialisation, which no value
fails. -/
def sectionBytes (toVec : Value → ByteVec) (object : Map) (section_ : String) : Option ByteVec :=
  (object.get section_).map toVec

def hashedBytes (toVec : Value → ByteVec) (object : Map) : List UInt8 :=
  stream textBytes (sectionBytes toVec object) sectionNames

/-- The digest, and how many bytes the sections have. -/
def stablePrefixHash (digest : List UInt8 → String) (toVec : Value → ByteVec) (object : Map) :
    String × Nat :=
  (digest (hashedBytes toVec object),
    ((sectionNames.filterMap (sectionBytes toVec object)).map fun bytes => bytes.1.length).sum)

variable {toVec : Value → ByteVec} {object other : Map}

theorem hashedBytes_inj (same : hashedBytes toVec object = hashedBytes toVec other) :
    ∀ section_ ∈ sectionNames, sectionBytes toVec object section_ =
      sectionBytes toVec other section_ :=
  stream_inj (by decide +kernel) (by decide +kernel) same

/-- With the same bytes hashed, the same sections are there with the same bytes. -/
theorem stable_prefix_framing (same : hashedBytes toVec object = hashedBytes toVec other) :
    ∀ section_ ∈ sectionNames, (object.get section_).isSome = (other.get section_).isSome ∧
      (object.get section_).map toVec = (other.get section_).map toVec := by
  intro section_ listed
  have bytes := hashedBytes_inj same section_ listed
  rw [sectionBytes, sectionBytes] at bytes
  have there := congrArg Option.isSome bytes
  rw [Option.isSome_map, Option.isSome_map] at there
  exact ⟨there, bytes⟩

def renderVec (value : Value) : ByteVec :=
  ⟨value.render.take (256 ^ 8 - 1), (List.length_take_le ..).trans_lt (by decide)⟩

def firstBody : Map := [("model", .string "a"), ("system", .string "tools\x00")]

def secondBody : Map := [("model", .string "b"), ("system", .string "tools\x00")]

theorem stable_prefix_framing_model :
    (firstBody.get "system").isSome = (secondBody.get "system").isSome ∧
      (firstBody.get "system").map renderVec = (secondBody.get "system").map renderVec :=
  @stable_prefix_framing renderVec firstBody secondBody rfl "system" (by decide)

end ClineProxy
