import ClineProxy.JsonTokens

/-! JSON documents as trees, their compact text and the reader of their text. -/

namespace JsonGrammar

inductive JsonTree (Number : Type) where
  | null
  | bool (value : Bool)
  | number (value : Number)
  | string (text : String)
  | array (items : List (JsonTree Number))
  | object (members : List (String × JsonTree Number))

/-- The numbers are the literals as they stand in the text. -/
abbrev Document := JsonTree (List Char)

/-! Writing -/

mutual

def write : Document → List Char
  | .null => ['n', 'u', 'l', 'l']
  | .bool true => ['t', 'r', 'u', 'e']
  | .bool false => ['f', 'a', 'l', 's', 'e']
  | .number literal => literal
  | .string text => quote text
  | .array [] => ['[', ']']
  | .array (item :: rest) => '[' :: (write item ++ writeItems rest)
  | .object [] => ['\x7b', '\x7d']
  | .object ((name, value) :: rest) =>
      '\x7b' :: (quote name ++ ':' :: (write value ++ writeMembers rest))

def writeItems : List Document → List Char
  | [] => [']']
  | item :: rest => ',' :: (write item ++ writeItems rest)

def writeMembers : List (String × Document) → List Char
  | [] => ['\x7d']
  | (name, value) :: rest => ',' :: (quote name ++ ':' :: (write value ++ writeMembers rest))

end

def writeMember (member : String × Document) : List Char :=
  quote member.1 ++ ':' :: write member.2

/-! Reading -/

def isBlank (character : Char) : Bool :=
  character == ' ' || character == '\n' || character == '\t' || character == '\r'

def skipBlanks (text : List Char) : List Char := text.dropWhile isBlank

def expect (word text : List Char) : Option (List Char) :=
  if word.isPrefixOf text then some (text.drop word.length) else none

def readName (text : List Char) : Option (String × List Char) := do
  let rest ← expect ['"'] (skipBlanks text)
  let (name, rest) ← readString rest
  let rest ← expect [':'] (skipBlanks rest)
  return (name, rest)

mutual

def readTree : Nat → List Char → Option (Document × List Char)
  | 0, _ => none
  | rounds + 1, text =>
      match skipBlanks text with
      | [] => none
      | first :: rest =>
          if first = '"' then
            (readString rest).map fun (text, rest) => (.string text, rest)
          else if first = '[' then
            if (skipBlanks rest).head? = some ']' then
              some (.array [], (skipBlanks rest).tail)
            else do
              let (item, rest) ← readTree rounds rest
              let (items, rest) ← readItems rounds rest
              return (.array (item :: items), rest)
          else if first = '\x7b' then
            if (skipBlanks rest).head? = some '\x7d' then
              some (.object [], (skipBlanks rest).tail)
            else do
              let (name, rest) ← readName rest
              let (value, rest) ← readTree rounds rest
              let (members, rest) ← readMembers rounds rest
              return (.object ((name, value) :: members), rest)
          else if first = 'n' then
            (expect ['u', 'l', 'l'] rest).map fun rest => (.null, rest)
          else if first = 't' then
            (expect ['r', 'u', 'e'] rest).map fun rest => (.bool true, rest)
          else if first = 'f' then
            (expect ['a', 'l', 's', 'e'] rest).map fun rest => (.bool false, rest)
          else (readNumber (first :: rest)).map fun (literal, rest) => (.number literal, rest)

def readItems : Nat → List Char → Option (List Document × List Char)
  | 0, _ => none
  | rounds + 1, text =>
      match skipBlanks text with
      | [] => none
      | first :: rest =>
          if first = ']' then some ([], rest)
          else if first = ',' then do
            let (item, rest) ← readTree rounds rest
            let (items, rest) ← readItems rounds rest
            return (item :: items, rest)
          else none

def readMembers : Nat → List Char → Option (List (String × Document) × List Char)
  | 0, _ => none
  | rounds + 1, text =>
      match skipBlanks text with
      | [] => none
      | first :: rest =>
          if first = '\x7d' then some ([], rest)
          else if first = ',' then do
            let (name, rest) ← readName rest
            let (value, rest) ← readTree rounds rest
            let (members, rest) ← readMembers rounds rest
            return ((name, value) :: members, rest)
          else none

end

def readDocument (text : List Char) : Option Document := do
  let (document, rest) ← readTree text.length text
  if skipBlanks rest = [] then some document else none

example : (readDocument "[ 1 ,\x7b\"a\" : true \x7d]\n".toList).map write =
    some "[1,\x7b\"a\":true\x7d]".toList := by
  decide

def Blanks : Type := {text : List Char // text.all isBlank = true}

section Spaced

variable (gap : Blanks)

mutual

/-- The same blanks stand behind every comma and every colon. -/
def writeSpaced : Document → List Char
  | .null => ['n', 'u', 'l', 'l']
  | .bool true => ['t', 'r', 'u', 'e']
  | .bool false => ['f', 'a', 'l', 's', 'e']
  | .number literal => literal
  | .string text => quote text
  | .array [] => ['[', ']']
  | .array (item :: rest) => '[' :: (writeSpaced item ++ writeSpacedItems rest)
  | .object [] => ['\x7b', '\x7d']
  | .object ((name, value) :: rest) =>
      '\x7b' :: (quote name ++ ':' :: (gap.1 ++ (writeSpaced value ++ writeSpacedMembers rest)))

def writeSpacedItems : List Document → List Char
  | [] => [']']
  | item :: rest => ',' :: (gap.1 ++ (writeSpaced item ++ writeSpacedItems rest))

def writeSpacedMembers : List (String × Document) → List Char
  | [] => ['\x7d']
  | (name, value) :: rest =>
      ',' :: (gap.1 ++ (quote name ++ ':' ::
        (gap.1 ++ (writeSpaced value ++ writeSpacedMembers rest))))

end

def writeSpacedMember (member : String × Document) : List Char :=
  quote member.1 ++ ':' :: (gap.1 ++ writeSpaced gap member.2)

theorem writeSpaced_array (items : List Document) :
    writeSpaced gap (.array items) =
      '[' :: ((',' :: gap.1).intercalate (items.map (writeSpaced gap)) ++ [']']) := by
  cases items with
  | nil => rfl
  | cons item rest =>
      rw [writeSpaced, List.cons.injEq]
      refine ⟨rfl, ?_⟩
      induction rest generalizing item with
      | nil => rw [List.map_singleton, List.intercalate_singleton, writeSpacedItems]
      | cons next rest ih =>
          rw [writeSpacedItems, ih next, List.map_cons, List.map_cons, List.map_cons,
            List.intercalate_cons_cons, List.append_assoc, List.append_assoc]
          rfl

theorem writeSpaced_object (members : List (String × Document)) :
    writeSpaced gap (.object members) = '\x7b' ::
      ((',' :: gap.1).intercalate (members.map (writeSpacedMember gap)) ++ ['\x7d']) := by
  cases members with
  | nil => rfl
  | cons member rest =>
      obtain ⟨name, value⟩ := member
      rw [writeSpaced, List.cons.injEq]
      refine ⟨rfl, ?_⟩
      induction rest generalizing name value with
      | nil => rw [writeSpacedMembers, List.map_singleton, List.intercalate_singleton,
          writeSpacedMember, List.append_assoc, List.cons_append, List.append_assoc]
      | cons next rest ih =>
          obtain ⟨nextName, nextValue⟩ := next
          rw [writeSpacedMembers, ih nextName nextValue, List.map_cons, List.map_cons,
            List.map_cons, List.intercalate_cons_cons]
          simp only [writeSpacedMember, List.append_assoc, List.cons_append]

end Spaced

def noBlanks : Blanks := ⟨[], rfl⟩

def oneBlank : Blanks := ⟨[' '], rfl⟩

mutual

theorem writeSpaced_noBlanks :
    (document : Document) → writeSpaced noBlanks document = write document
  | .null => rfl
  | .bool true => rfl
  | .bool false => rfl
  | .number _ => rfl
  | .string _ => rfl
  | .array [] => rfl
  | .array (item :: rest) => by
      rw [writeSpaced, writeSpaced_noBlanks item, writeSpacedItems_noBlanks rest, write]
  | .object [] => rfl
  | .object ((name, value) :: rest) => by
      rw [writeSpaced, writeSpaced_noBlanks value, writeSpacedMembers_noBlanks rest, write]
      rfl

theorem writeSpacedItems_noBlanks :
    (items : List Document) → writeSpacedItems noBlanks items = writeItems items
  | [] => rfl
  | item :: rest => by
      rw [writeSpacedItems, writeSpaced_noBlanks item, writeSpacedItems_noBlanks rest, writeItems]
      rfl

theorem writeSpacedMembers_noBlanks : (members : List (String × Document)) →
    writeSpacedMembers noBlanks members = writeMembers members
  | [] => rfl
  | (name, value) :: rest => by
      rw [writeSpacedMembers, writeSpaced_noBlanks value, writeSpacedMembers_noBlanks rest,
        writeMembers]
      rfl

end

theorem write_array (items : List Document) :
    write (.array items) = '[' :: ([','].intercalate (items.map write) ++ [']']) := by
  rw [← writeSpaced_noBlanks, writeSpaced_array, List.map_congr_left fun item _ =>
    writeSpaced_noBlanks item]
  rfl

theorem write_object (members : List (String × Document)) :
    write (.object members) =
      '\x7b' :: ([','].intercalate (members.map writeMember) ++ ['\x7d']) := by
  have same (member : String × Document) : writeSpacedMember noBlanks member =
      writeMember member := by
    rw [writeSpacedMember, writeSpaced_noBlanks, writeMember]
    rfl
  rw [← writeSpaced_noBlanks, writeSpaced_object, List.map_congr_left fun member _ => same member]
  rfl

mutual

def Literals : Document → Prop
  | .number literal => isNumber literal = true
  | .array items => LiteralItems items
  | .object members => LiteralMembers members
  | .null | .bool _ | .string _ => True

def LiteralItems : List Document → Prop
  | [] => True
  | item :: rest => Literals item ∧ LiteralItems rest

def LiteralMembers : List (String × Document) → Prop
  | [] => True
  | (_, value) :: rest => Literals value ∧ LiteralMembers rest

end

theorem skipBlanks_cons {first : Char} (mark : isBlank first = false) (rest : List Char) :
    skipBlanks (first :: rest) = first :: rest :=
  List.dropWhile_cons_of_neg (by simp [mark])

theorem skipBlanks_append (gap : Blanks) (text : List Char) :
    skipBlanks (gap.1 ++ text) = skipBlanks text :=
  List.dropWhile_append_of_pos (List.all_eq_true.mp gap.2)

theorem readTree_blanks (gap : Blanks) (rounds : Nat) (text : List Char) :
    readTree rounds (gap.1 ++ text) = readTree rounds text := by
  cases rounds with
  | zero => rfl
  | succ rounds => rw [readTree, readTree, skipBlanks_append]

theorem readName_blanks (gap : Blanks) (text : List Char) :
    readName (gap.1 ++ text) = readName text := by
  rw [readName, readName, skipBlanks_append]

theorem readName_quote (name : String) (rest : List Char) :
    readName (quote name ++ ':' :: rest) = some (name, rest) := by
  have opening : expect ['"'] (skipBlanks (quote name ++ ':' :: rest)) =
      some (name.toList.flatMap escape ++ '"' :: ':' :: rest) := by
    rw [quote, List.cons_append, skipBlanks_cons (by decide), List.append_assoc]
    rfl
  rw [readName, opening]
  simp only [Option.bind_eq_bind, Option.bind_some]
  rw [readString_quote]
  rfl

theorem ne_of_isNumberChar {first mark : Char} (number : isNumberChar first = true)
    (other : isNumberChar mark = false) : first ≠ mark := by
  rintro rfl
  rw [number] at other
  cases other

theorem not_isBlank {first : Char} (number : isNumberChar first = true) :
    isBlank first = false := by
  have other {mark : Char} (not : isNumberChar mark = false) : (first == mark) = false :=
    beq_false_of_ne (ne_of_isNumberChar number not)
  rw [isBlank, other (by decide), other (by decide), other (by decide), other (by decide)]
  rfl

theorem closed_cons {mark : Char} (other : isNumberChar mark = false) (rest : List Char) :
    Closed (mark :: rest) := by
  intro next found
  cases found
  exact other

theorem closed_nil : Closed [] := fun _ found => by cases found

theorem closed_items (gap : Blanks) (items : List Document) (rest : List Char) :
    Closed (writeSpacedItems gap items ++ rest) := by
  cases items with
  | nil => exact closed_cons (by decide) _
  | cons => exact closed_cons (by decide) _

theorem closed_members (gap : Blanks) (members : List (String × Document)) (rest : List Char) :
    Closed (writeSpacedMembers gap members ++ rest) := by
  cases members with
  | nil => exact closed_cons (by decide) _
  | cons => exact closed_cons (by decide) _

theorem write_cons (gap : Blanks) {document : Document} (literals : Literals document) :
    ∃ first rest, writeSpaced gap document = first :: rest ∧ isBlank first = false ∧
      first ≠ ']' := by
  cases document with
  | null => exact ⟨_, _, rfl, by decide, by decide⟩
  | bool value => cases value <;> exact ⟨_, _, rfl, by decide, by decide⟩
  | number literal =>
      obtain ⟨first, rest, rfl, number⟩ := isNumber_cons literals
      exact ⟨first, rest, rfl, not_isBlank number, ne_of_isNumberChar number (by decide)⟩
  | string text => exact ⟨_, _, rfl, by decide, by decide⟩
  | array items => cases items <;> exact ⟨_, _, rfl, by decide, by decide⟩
  | object members => cases members <;> exact ⟨_, _, rfl, by decide, by decide⟩

theorem readTree_number {first : Char} {text rest literal : List Char}
    (number : isNumberChar first = true)
    (read : readNumber (first :: text) = some (literal, rest)) (rounds : Nat) :
    readTree (rounds + 1) (first :: text) = some (.number literal, rest) := by
  have other {mark : Char} (not : isNumberChar mark = false) : first ≠ mark :=
    ne_of_isNumberChar number not
  rw [readTree, skipBlanks_cons (not_isBlank number)]
  dsimp only
  rw [if_neg (other (by decide)), if_neg (other (by decide)), if_neg (other (by decide)),
    if_neg (other (by decide)), if_neg (other (by decide)), if_neg (other (by decide)), read,
    Option.map_some]

theorem readTree_string (text : String) (rest : List Char) (rounds : Nat) :
    readTree (rounds + 1) (quote text ++ rest) = some (.string text, rest) := by
  rw [quote, List.cons_append, List.append_assoc, List.singleton_append, readTree,
    skipBlanks_cons (by decide)]
  dsimp only
  rw [if_pos rfl, readString_quote, Option.map_some]

theorem readTree_array {first : Char} {text rest others : List Char} {item : Document}
    {items : List Document} {rounds : Nat} (mark : isBlank first = false) (filled : first ≠ ']')
    (readItem : readTree rounds (first :: text) = some (item, others))
    (readOthers : readItems rounds others = some (items, rest)) :
    readTree (rounds + 1) ('[' :: first :: text) = some (.array (item :: items), rest) := by
  rw [readTree, skipBlanks_cons (by decide)]
  dsimp only
  rw [if_neg (by decide), if_pos rfl, skipBlanks_cons mark, List.head?_cons,
    if_neg fun same => filled (Option.some.inj same), readItem]
  simp only [Option.bind_eq_bind, Option.bind_some]
  rw [readOthers]
  rfl

theorem readTree_object {name : String} {text rest others : List Char} {value : Document}
    {members : List (String × Document)} {rounds : Nat}
    (readValue : readTree rounds text = some (value, others))
    (readOthers : readMembers rounds others = some (members, rest)) :
    readTree (rounds + 1) ('\x7b' :: (quote name ++ ':' :: text)) =
      some (.object ((name, value) :: members), rest) := by
  have filled : (skipBlanks (quote name ++ ':' :: text)).head? ≠ some '\x7d' := by
    rw [quote, List.cons_append, skipBlanks_cons (by decide), List.head?_cons]
    decide
  rw [readTree, skipBlanks_cons (by decide)]
  dsimp only
  rw [if_neg (by decide), if_neg (by decide), if_pos rfl, if_neg filled, readName_quote]
  simp only [Option.bind_eq_bind, Option.bind_some]
  rw [readValue]
  simp only [Option.bind_some]
  rw [readOthers]
  rfl

section Spaced

variable (gap : Blanks)

mutual

theorem readTree_writeSpaced : (document : Document) → Literals document → {rounds : Nat} →
    (writeSpaced gap document).length ≤ rounds → {rest : List Char} → Closed rest →
    readTree rounds (writeSpaced gap document ++ rest) = some (document, rest)
  | .null, _, rounds + 1, _, rest, _ => rfl
  | .bool true, _, rounds + 1, _, rest, _ => rfl
  | .bool false, _, rounds + 1, _, rest, _ => rfl
  | .number literal, literals, rounds, enough, rest, closed => by
      have read := readNumber_append literals closed
      obtain ⟨first, later, rfl, number⟩ := isNumber_cons literals
      obtain ⟨rounds, rfl⟩ := Nat.exists_eq_succ_of_ne_zero (Nat.ne_zero_of_lt enough)
      exact readTree_number number read rounds
  | .string text, _, rounds + 1, _, rest, _ => readTree_string text rest rounds
  | .array [], _, rounds + 1, _, rest, _ => rfl
  | .array (item :: items), literals, rounds + 1, enough, rest, closed => by
      rw [writeSpaced, List.length_cons, List.length_append] at enough
      have readItem := readTree_writeSpaced item literals.1 (by omega : _ ≤ rounds)
        (closed_items gap items rest)
      have readOthers := readItems_writeSpaced items literals.2 (by omega : _ ≤ rounds) rest
      obtain ⟨first, text, starts, mark, filled⟩ := write_cons gap literals.1
      rw [writeSpaced, List.cons_append, List.append_assoc]
      rw [starts] at readItem ⊢
      exact readTree_array mark filled readItem readOthers
  | .object [], _, rounds + 1, _, rest, _ => rfl
  | .object ((name, value) :: members), literals, rounds + 1, enough, rest, closed => by
      simp only [writeSpaced, List.length_cons, List.length_append] at enough
      have readValue := readTree_writeSpaced value literals.1 (by omega : _ ≤ rounds)
        (closed_members gap members rest)
      have readOthers := readMembers_writeSpaced members literals.2 (by omega : _ ≤ rounds) rest
      rw [← readTree_blanks gap] at readValue
      simp only [writeSpaced, List.cons_append, List.append_assoc]
      exact readTree_object readValue readOthers

theorem readItems_writeSpaced : (items : List Document) → LiteralItems items → {rounds : Nat} →
    (writeSpacedItems gap items).length ≤ rounds → (rest : List Char) →
    readItems rounds (writeSpacedItems gap items ++ rest) = some (items, rest)
  | [], _, rounds + 1, _, rest => rfl
  | item :: items, literals, rounds + 1, enough, rest => by
      simp only [writeSpacedItems, List.length_cons, List.length_append] at enough
      have readItem := readTree_writeSpaced item literals.1 (by omega : _ ≤ rounds)
        (closed_items gap items rest)
      have readOthers := readItems_writeSpaced items literals.2 (by omega : _ ≤ rounds) rest
      simp only [writeSpacedItems, List.cons_append, List.append_assoc]
      rw [readItems, skipBlanks_cons (by decide)]
      dsimp only
      rw [if_neg (by decide), if_pos rfl, readTree_blanks, readItem]
      simp only [Option.bind_eq_bind, Option.bind_some]
      rw [readOthers]
      rfl

theorem readMembers_writeSpaced : (members : List (String × Document)) →
    LiteralMembers members → {rounds : Nat} → (writeSpacedMembers gap members).length ≤ rounds →
    (rest : List Char) →
    readMembers rounds (writeSpacedMembers gap members ++ rest) = some (members, rest)
  | [], _, rounds + 1, _, rest => rfl
  | (name, value) :: members, literals, rounds + 1, enough, rest => by
      simp only [writeSpacedMembers, List.length_cons, List.length_append] at enough
      have readValue := readTree_writeSpaced value literals.1 (by omega : _ ≤ rounds)
        (closed_members gap members rest)
      have readOthers := readMembers_writeSpaced members literals.2 (by omega : _ ≤ rounds) rest
      simp only [writeSpacedMembers, List.cons_append, List.append_assoc]
      rw [readMembers, skipBlanks_cons (by decide)]
      dsimp only
      rw [if_neg (by decide), if_pos rfl, readName_blanks, readName_quote]
      simp only [Option.bind_eq_bind, Option.bind_some]
      rw [readTree_blanks, readValue]
      simp only [Option.bind_some]
      rw [readOthers]
      rfl

end

theorem readDocument_writeSpaced {document : Document} (literals : Literals document) :
    readDocument (writeSpaced gap document) = some document := by
  have read : readTree (writeSpaced gap document).length (writeSpaced gap document) =
      some (document, []) := by
    have whole := readTree_writeSpaced gap document literals (le_refl _) (closed_nil)
    rwa [List.append_nil] at whole
  rw [readDocument, read]
  rfl

end Spaced

theorem readDocument_write {document : Document} (literals : Literals document) :
    readDocument (write document) = some document := by
  rw [← writeSpaced_noBlanks, readDocument_writeSpaced noBlanks literals]

end JsonGrammar
