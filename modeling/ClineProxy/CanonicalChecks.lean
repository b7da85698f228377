import ClineProxy.PromptPrivacy
import ClineProxy.SerdeNumbers

/-! The canonical text as a normal form of documents. -/

namespace ClineProxy

open Json
open JsonGrammar (Document JsonTree)

/-- A codec that follows the grammar of JSON and nests arrays and objects up to a bound. -/
structure FollowsGrammar (numbers : NumberCoding) (bound : Nat) (codec : Codec) : Prop where
  null : codec.toText .null = "null"
  bool : ∀ value, codec.toText (.bool value) = if value then "true" else "false"
  number : ∀ value, codec.toText (.number value) = String.ofList (numbers.write value)
  string : ∀ text, codec.toText (.string text) = String.ofList (JsonGrammar.quote text)
  fromStr : ∀ text, codec.fromStr text = (JsonGrammar.readDocument text.toList).bind
    fun document => if document.depth ≤ bound then ofDocument numbers document else none

variable {numbers : NumberCoding} {bound : Nat} {codec : Codec}

def grammarCodec (numbers : NumberCoding) (bound : Nat) : Codec where
  fromStr text := (JsonGrammar.readDocument text.toList).bind fun document =>
    if document.depth ≤ bound then ofDocument numbers document else none
  fromSlice _ := none
  toText value := String.ofList (JsonGrammar.write (value.document numbers))

theorem follows_grammarCodec (numbers : NumberCoding) (bound : Nat) :
    FollowsGrammar numbers bound (grammarCodec numbers bound) where
  null := rfl
  bool value := by cases value <;> rfl
  number _ := rfl
  string _ := rfl
  fromStr _ := rfl

theorem FollowsGrammar.parsed (follows : FollowsGrammar numbers bound codec) {text : String}
    {value : Value} (parsed : codec.fromStr text = some value) :
    ∃ document, JsonGrammar.readDocument text.toList = some document ∧ document.depth ≤ bound ∧
      ofDocument numbers document = some value := by
  rw [follows.fromStr, Option.bind_eq_some_iff] at parsed
  obtain ⟨document, read, made⟩ := parsed
  split at made
  next within => exact ⟨document, read, within, made⟩
  next => cases made

mutual

theorem canonical_toList (follows : FollowsGrammar numbers bound codec) :
    (value : Value) → (canonicalJsonString codec value).toList =
    JsonGrammar.write (value.document numbers).sorted
  | .null => by
      rw [canonicalJsonString, follows.null]
      rfl
  | .bool value => by
      rw [canonicalJsonString, follows.bool]
      cases value <;> rfl
  | .number value => by
      rw [canonicalJsonString, follows.number, String.toList_ofList]
      rfl
  | .string text => by
      rw [canonicalJsonString, follows.string, String.toList_ofList]
      rfl
  | .array items => by
      rw [canonicalJsonString, Value.document, JsonTree.sorted, JsonGrammar.write_array,
        ← canonicalItems_toList follows items, String.toList_append, String.toList_append,
        String.toList_intercalate]
      rfl
  | .object fields => by
      have sorted : sortMembers (canonicalMembers codec fields) =
          (JsonTree.byName (JsonTree.sortedMembers (memberDocuments numbers fields))).map
            fun member => (member.1, String.ofList (JsonGrammar.write member.2)) := by
        rw [canonicalMembers_sorted follows fields]
        exact (List.map_insertionSort
          (fun first second : String × Document => first.1 ≤ second.1)
          (fun first second : String × String => first.1 ≤ second.1) _ _
          fun _ _ _ _ => Iff.rfl).symm
      have texts : ((sortMembers (canonicalMembers codec fields)).map fun member =>
            codec.toText (.string member.1) ++ ":" ++ member.2).map String.toList =
          (JsonTree.byName (JsonTree.sortedMembers (memberDocuments numbers fields))).map
            JsonGrammar.writeMember := by
        rw [sorted, List.map_map, List.map_map]
        refine List.map_congr_left fun member _ => ?_
        dsimp only [Function.comp_apply]
        rw [follows.string, String.toList_append, String.toList_append, String.toList_ofList,
          String.toList_ofList, String.toList_ofList, JsonGrammar.writeMember, List.append_assoc]
        rfl
      rw [canonicalJsonString, Value.document, JsonTree.sorted, JsonGrammar.write_object, ← texts,
        String.toList_append, String.toList_append, String.toList_intercalate]
      rfl

theorem canonicalItems_toList (follows : FollowsGrammar numbers bound codec) :
    (items : List Value) →
    (canonicalItems codec items).map String.toList =
      (JsonTree.sortedItems (itemDocuments numbers items)).map JsonGrammar.write
  | [] => rfl
  | item :: rest => by
      rw [canonicalItems, itemDocuments, JsonTree.sortedItems, List.map_cons, List.map_cons,
        canonical_toList follows item, canonicalItems_toList follows rest]

theorem canonicalMembers_sorted (follows : FollowsGrammar numbers bound codec) :
    (fields : List (String × Value)) →
    canonicalMembers codec fields =
      (JsonTree.sortedMembers (memberDocuments numbers fields)).map fun member =>
        (member.1, String.ofList (JsonGrammar.write member.2))
  | [] => rfl
  | (name, value) :: rest => by
      rw [canonicalMembers, memberDocuments, JsonTree.sortedMembers, List.map_cons,
        ← canonical_toList follows value, canonicalMembers_sorted follows rest,
        String.ofList_toList]

end

section Normal

variable (follows : FollowsGrammar numbers bound codec)

include follows

theorem readDocument_canonical {value : Value}
    (literals : JsonGrammar.Literals (value.document numbers)) :
    JsonGrammar.readDocument (canonicalJsonString codec value).toList =
      some (value.document numbers).sorted := by
  rw [canonical_toList follows]
  exact JsonGrammar.readDocument_write (JsonTree.literals_sorted literals)

theorem canonical_eq_iff {value other : Value} (distinct : value.Distinct)
    (readable : value.EveryNumber numbers.Readable)
    (otherReadable : other.EveryNumber numbers.Readable) :
    canonicalJsonString codec value = canonicalJsonString codec other ↔
      Reordered value other := by
  constructor
  · intro same
    have read := readDocument_canonical follows
      (literals_document numbers.writes_readable value readable)
    rw [same, readDocument_canonical follows
      (literals_document numbers.writes_readable other otherReadable)] at read
    exact reordered_of_sorted value readable otherReadable (Option.some.inj read).symm
  · exact fun moved => reordered_canonical codec moved distinct

/-- Texts are equal for the documents that differ in the order of members only; what is read from
a text is such a document, and has the text again. -/
theorem canonical_normal (value other : Value) (distinct : value.Distinct)
    (readable : value.EveryNumber numbers.Readable)
    (otherReadable : other.EveryNumber numbers.Readable) :
    (canonicalJsonString codec value = canonicalJsonString codec other ↔
        Reordered value other) ∧
      ∃ parsed, (JsonGrammar.readDocument (canonicalJsonString codec value).toList).bind
            (ofDocument numbers) = some parsed ∧
        ((value.document numbers).depth ≤ bound →
          codec.fromStr (canonicalJsonString codec value) = some parsed) ∧
        Reordered value parsed ∧
        canonicalJsonString codec parsed = canonicalJsonString codec value := by
  have moved := reordered_sortKeys value
  have read := readDocument_canonical follows
    (literals_document numbers.writes_readable value readable)
  have parsed : ofDocument numbers (value.document numbers).sorted = some value.sortKeys := by
    rw [← document_sortKeys]
    exact ofDocument_document numbers _ (moved.distinct distinct) (moved.everyNumber readable)
  refine ⟨canonical_eq_iff follows distinct readable otherReadable, value.sortKeys, ?_, ?_, moved,
    (reordered_canonical codec moved distinct).symm⟩
  · rw [read, Option.bind_some, parsed]
  · intro within
    rw [follows.fromStr, read, Option.bind_some, if_pos (JsonTree.depth_sorted_le within), parsed]

end Normal

def wholeNumbers : NumberCoding := Floats.numbers ⟨fun _ => [], fun _ => none⟩

theorem canonical_normal_moved :
    canonicalJsonString (grammarCodec wholeNumbers 127)
        (.object [("b", .array [.null, .string "\""]), ("a", .number (.posInt 2))]) =
      canonicalJsonString (grammarCodec wholeNumbers 127)
        (.object [("a", .number (.posInt 2)), ("b", .array [.null, .string "\""])]) := by
  have readable : wholeNumbers.Readable (.posInt 2) := ⟨by decide +kernel, by decide +kernel⟩
  refine (canonical_normal (follows_grammarCodec wholeNumbers 127) _ _ ?_ ?_ ?_).1.mpr
    (.object (.cons "b" (.same _) (.cons "a" (.same _) .nil)) (List.Perm.swap _ _ _))
  · exact ⟨by simp [Map.Distinct], ⟨trivial, trivial, trivial⟩, trivial, trivial⟩
  · exact ⟨⟨trivial, trivial, trivial⟩, readable, trivial⟩
  · exact ⟨readable, ⟨trivial, trivial, trivial⟩, trivial⟩

end ClineProxy
