import ClineProxy.GlmMessages
import ClineProxy.PromptPrivacy
import ClineProxy.ThinkingEpochs

/-! The messages that are counted, beside those that are sent. -/

namespace ClineProxy

open Json Text

inductive ContentPart where
  | text (text : String)
  | image
  | file
  deriving DecidableEq

def contentPart (block : Value) : ContentPart :=
  match (block.get "type").bind Value.asStr with
  | some "text" => .text (((block.get "text").bind Value.asStr).getD "")
  | some "file" => .file
  | _ => .image

def contentParts : Value → List ContentPart
  | .string text => [.text text]
  | .array blocks => blocks.map contentPart
  | _ => []

def prependText (text : String) : List ContentPart → List ContentPart
  | .text later :: rest => .text (text ++ later) :: rest
  | parts => if text = "" then parts else .text text :: parts

/-- Neighbouring texts are one text, and an empty one is none. -/
def joinTexts : List ContentPart → List ContentPart
  | [] => []
  | .text text :: rest => prependText text (joinTexts rest)
  | .image :: rest => .image :: joinTexts rest
  | .file :: rest => .file :: joinTexts rest

example : joinTexts [.text "a", .text "", .text "b", .image, .text ""] =
    [.text "ab", .image] := by decide

structure MessageView where
  speaker : String
  content : List ContentPart
  reasoning : String
  calls : List (String × String)
  answers : Option String
  deriving DecidableEq

def argumentText (codec : Codec) : Value → String
  | .string text => text
  | value => codec.toText value

def callView (codec : Codec) (call : Value) : String × String :=
  let function := call.get "function"
  (((function.bind (Value.get "name")).bind Value.asStr).getD "",
    (function.bind (Value.get "arguments")).elim "" (argumentText codec))

/-- What a message says, whichever of the two conversions made it. -/
def messageView (codec : Codec) (message : Value) : MessageView where
  speaker := (role message).getD ""
  content := joinTexts (contentParts ((message.get "content").getD .null))
  reasoning := reasoningContent message
  calls := (((message.get "tool_calls").bind Value.asArray).getD []).map (callView codec)
  answers := (message.get "tool_call_id").bind Value.asStr

def systemTexts : Value → List String
  | .string text => [text]
  | .array blocks => blocks.filterMap plainBlockText
  | _ => []

def hasBillingHeader (text : String) : Bool := startsWith billingHeaderPrefix text.toList

def hasNoBlocks : Value → Bool
  | .array [] => true
  | _ => false

/-- A user message of no blocks is sent and not counted; a billing header in a system message of
the conversation is counted and not sent. -/
def CountedAsSent (message : Value) : Prop :=
  let content := (message.get "content").getD .null
  (role message = some "user" → hasNoBlocks content = false) ∧
  (role message = some "system" → ∀ text ∈ systemTexts content, hasBillingHeader text = false)

instance : DecidablePred CountedAsSent := fun _ => inferInstanceAs (Decidable (_ ∧ _))

theorem prependText_append (first second : String) (parts : List ContentPart) :
    prependText first (prependText second parts) = prependText (first ++ second) parts := by
  have shorter (later : List ContentPart) (noText : ∀ text rest, later ≠ .text text :: rest) :
      prependText first (prependText second later) = prependText (first ++ second) later := by
    rw [prependText.eq_2 second later noText, prependText.eq_2 _ later noText]
    by_cases empty : second = ""
    · rw [if_pos empty, prependText.eq_2 first later noText, empty, String.append_empty]
    · have filled : first ++ second ≠ "" := by simp [empty]
      rw [if_neg empty, if_neg filled, prependText]
  match parts with
  | .text later :: rest => simp only [prependText, String.append_assoc]
  | [] => exact shorter [] (by simp)
  | .image :: rest => exact shorter _ (by simp)
  | .file :: rest => exact shorter _ (by simp)

theorem joinTexts_texts (texts : List String) :
    joinTexts (texts.map ContentPart.text) = joinTexts [.text (String.join texts)] := by
  have empty : prependText "" [] = [] := rfl
  induction texts with
  | nil => rw [String.join_nil, joinTexts, joinTexts, List.map_nil, joinTexts, empty]
  | cons text rest ih =>
      rw [List.map_cons, joinTexts, ih, joinTexts, joinTexts, prependText_append,
        ← String.join_cons, joinTexts, joinTexts]

def textLength : List ContentPart → Nat
  | [] => 0
  | .text text :: rest => text.length + textLength rest
  | .image :: rest => textLength rest
  | .file :: rest => textLength rest

theorem textLength_prependText (text : String) (parts : List ContentPart) :
    textLength (prependText text parts) = text.length + textLength parts := by
  unfold prependText
  split
  next later rest => simp only [textLength, String.length_append, Nat.add_assoc]
  next =>
    split
    next empty => simp [empty]
    next => rfl

theorem textLength_joinTexts (parts : List ContentPart) :
    textLength (joinTexts parts) = textLength parts := by
  induction parts with
  | nil => rfl
  | cons part rest ih =>
      cases part with
      | text text => rw [joinTexts, textLength_prependText, ih, textLength]
      | image => rw [joinTexts, textLength, ih, textLength]
      | file => rw [joinTexts, textLength, ih, textLength]

theorem textLength_texts (texts : List String) :
    textLength (texts.map ContentPart.text) = (texts.map String.length).sum := by
  induction texts with
  | nil => rfl
  | cons text rest ih => rw [List.map_cons, textLength, ih, List.map_cons, List.sum_cons]

theorem stripBillingHeader_self {text : String} (plain : hasBillingHeader text = false) :
    stripBillingHeader text = text := by
  rw [hasBillingHeader] at plain
  simp [stripBillingHeader, billingHeaderCut, plain]

theorem length_stripBillingHeader (text : String) :
    (stripBillingHeader text).length = text.length - billingHeaderCut text.toList := by
  rw [stripBillingHeader, String.length_ofList, List.length_drop, String.length_toList]

theorem stripBillingHeader_shorter {text : String} (header : hasBillingHeader text = true) :
    (stripBillingHeader text).length < text.length := by
  rw [hasBillingHeader] at header
  have fits : billingHeaderPrefix.length ≤ text.toList.length :=
    (List.isPrefixOf_iff_prefix.mp header).length_le
  have long : 0 < billingHeaderPrefix.length := by decide
  have cut : 0 < billingHeaderCut text.toList := by
    rw [billingHeaderCut, if_pos header]
    have withEnd (lineEnd : Nat) (some_ : 0 < lineEnd) :
        0 < (if startsWith ['\r', '\n'] (text.toList.drop lineEnd) then lineEnd + 2
          else if startsWith ['\r'] (text.toList.drop lineEnd) ||
            startsWith ['\n'] (text.toList.drop lineEnd) then lineEnd + 1 else lineEnd) := by
      split
      next => omega
      next => split <;> omega
    dsimp only
    split
    next => exact withEnd _ (Nat.lt_of_lt_of_le long (Nat.le_add_right ..))
    next => exact withEnd _ (Nat.lt_of_lt_of_le long fits)
  rw [length_stripBillingHeader]
  rw [String.length_toList] at fits
  omega

theorem stripped_lengths (texts : List String) :
    ((texts.map stripBillingHeader).map String.length).sum ≤ (texts.map String.length).sum := by
  induction texts with
  | nil => exact Nat.le_refl _
  | cons text rest ih =>
      simp only [List.map_cons, List.sum_cons]
      have first := length_stripBillingHeader text
      omega

theorem plain_of_lengths {texts : List String}
    (same : ((texts.map stripBillingHeader).map String.length).sum =
      (texts.map String.length).sum) :
    ∀ text ∈ texts, hasBillingHeader text = false := by
  induction texts with
  | nil => simp
  | cons text rest ih =>
      simp only [List.map_cons, List.sum_cons] at same
      have later := stripped_lengths rest
      cases header : hasBillingHeader text with
      | false =>
          rw [stripBillingHeader_self header] at same
          exact List.forall_mem_cons.mpr ⟨header, ih (by omega)⟩
      | true =>
          have first := stripBillingHeader_shorter header
          omega

theorem joinTexts_stripped (texts : List String) :
    joinTexts ((texts.map stripBillingHeader).map ContentPart.text) =
        joinTexts (texts.map ContentPart.text) ↔
      ∀ text ∈ texts, hasBillingHeader text = false := by
  constructor
  · intro same
    have lengths := congrArg textLength same
    rw [textLength_joinTexts, textLength_joinTexts, textLength_texts, textLength_texts] at lengths
    exact plain_of_lengths lengths
  · intro plain
    have kept : texts.map stripBillingHeader = texts.map id :=
      List.map_congr_left fun text member => stripBillingHeader_self (plain text member)
    rw [kept, List.map_id]

end ClineProxy
