import Marginalia.Record
import Marginalia.Record.Lexis

namespace Marginalia.Reading

-- How deep values may lie in each other.
def nestingLimit : Nat := 128

-- Whether an optional value may stand without the word for it.
structure Leniency where
  bareOptions : Bool

def comma : Reader Bool := do
  gap
  if ← take "," then
    gap
    return true
  else return false

-- Entries up to a closing sign, with commas between them and perhaps one after the last. Every
-- entry takes a character at least, so there are no more rounds than characters.
def entriesFrom {ρ : Type} (closing : Char) (entry : ρ → Reader ρ) : Nat → Bool → ρ → Reader ρ
  | 0, _, _ => refuse
  | rounds + 1, separated, r => do
    gap
    match (← get).head? with
    | none => refuse
    | some c =>
      if c = closing then
        modify (·.drop 1)
        return r
      else if separated then
        let r ← entry r
        entriesFrom closing entry rounds (← comma) r
      else refuse

def entries {ρ : Type} (opening : String) (closing : Char) (entry : ρ → Reader ρ) (r : ρ) : Reader ρ := do
  expect opening
  let cs ← get
  entriesFrom closing entry (cs.length + 1) true r

def colon : Reader Unit := do
  gap
  expect ":"
  gap

def sequence {α : Type} (item : Reader α) : Reader (List α) := do
  let latest ← entries "[" ']' (fun latest => return (← item) :: latest) []
  return latest.reverse

def mapping {κ α : Type} (key : Reader κ) (value : Reader α) : Reader (List (κ × α)) := do
  let latest ← entries "\x7b" '\x7d' (fun latest => do
    let k ← key
    colon
    return (k, ← value) :: latest) []
  return latest.reverse

-- Named fields in parentheses.
def fields {ρ : Type} (field : String → ρ → Reader ρ) (r : ρ) : Reader ρ :=
  entries "(" ')' (fun r => do
    let key ← name
    field key r) r

-- A structure may be preceded by its own name and by no other.
def structure? {ρ : Type} (title : String) (field : String → ρ → Reader ρ) (r : ρ) : Reader ρ := do
  match name? (← get) with
  | some (found, rest) =>
    if found = title then set rest else refuse
  | none => pure ()
  gap
  fields field r

-- The value of an optional field.
def option {α : Type} (lenient : Leniency) (value : Reader α) : Reader (Option α) := do
  if ← takeWord "None" then return none
  if ← takeWord "Some" then
    gap
    expect "("
    gap
    let a ← value
    let _ ← comma
    expect ")"
    return some a
  else if lenient.bareOptions then return some (← value)
  else refuse

-- Whole numbers of any form have 64 bits, one of them for the sign if there is one.
def wholeLimit : List Char → Nat
  | '-' :: _ => maxOffset / 2 + 2
  | '+' :: _ => maxOffset / 2 + 1
  | _ => maxOffset + 1

-- A number of any form. What looks like a whole number and is none may still be a decimal one.
def anyNumber : Reader Unit := fun cs =>
  let body := (signed cs).2
  let whole : Except Fault (Nat × List Char) :=
    if (body.takeWhile isFloatPart).length ≤ (body.takeWhile isIntegerPart).length then
      natBelow (wholeLimit cs) body
    else .error .malformedRecord
  match whole with
  | .ok (_, rest) => .ok ((), rest)
  | .error _ => do
    let (_, rest) ← binary .double cs
    return ((), rest)

-- Whether parentheses hold named fields: a name comes first and a colon after it.
def holdsFields : List Char → Bool
  | '(' :: body => match skipGap .blank body with
    | .ok body => match name? body with
      | some (_, rest) => match skipGap .blank rest with
        | .ok (':' :: _) => true
        | _ => false
      | none => false
    | .error _ => false
  | _ => false

-- Passes over a value of any form, given how to pass over what lies in containers and what
-- lies in an optional value.
def anyShape (depth : Nat) (inner content : Reader Unit) : Reader Unit := do
  let container (opening : String) (closing : Char) (entry : Reader Unit) : Reader Unit :=
    if depth = 0 then refuse else entries opening closing (fun _ => entry) ()
  let pair (key : Reader Unit) : Reader Unit := do
    key
    colon
    inner
  let parentheses : Reader Unit := do
    if holdsFields (← get) then container "(" ')' (pair (discard name))
    else container "(" ')' inner
  if ← takeWord "true" then return
  if ← takeWord "false" then return
  if ← takeWord "Some" then
    gap
    expect "("
    gap
    content
    let _ ← comma
    expect ")"
    return
  if ← takeWord "None" then return
  if ← take "()" then return
  if ← takeWord "inf" then return
  if ← takeWord "-inf" then return
  if ← takeWord "NaN" then return
  match name? (← get) with
  | some (_, rest) =>
    set rest
    gap
    if (← get).head? = some '(' then parentheses
  | none => match (← get).head? with
    | some '(' => parentheses
    | some '[' => container "[" ']' inner
    | some '\x7b' => container "\x7b" '\x7d' (pair inner)
    | some '"' | some 'r' => discard text
    | some '\x27' => character
    | some c => if c.isDigit || c = '+' || c = '-' || c = '.' then anyNumber else refuse
    | none => refuse

-- A container counts as a level and so does everything in it.
def anything : Nat → Reader Unit
  | 0 => anyShape 0 refuse refuse
  | 1 => anyShape 1 refuse (anything 0)
  | depth + 2 => anyShape (depth + 2) (anything depth) (anything (depth + 1))

-- A field that may come once, and its value.
def once {α : Type} (slot : Option α) (value : Reader α) : Reader (Option α) := do
  if slot.isSome then refuse
  colon
  return some (← value)

-- A field of no known name, with any value. `used` levels lie around it.
def skipField (used : Nat) : Reader Unit := do
  colon
  anything (nestingLimit - used)

def required {α : Type} : Option α → Reader α
  | some a => pure a
  | none => refuse

def offset : Reader Nat := natBelow (maxOffset + 1)

def span (used : Nat) : Reader Span := do
  let (start, stop) ← structure? "SpanRecord" (fun key (start, stop) => do
    match key with
    | "begin" => return (← once start offset, stop)
    | "end" => return (start, ← once stop offset)
    | _ =>
      skipField (used + 2)
      return (start, stop)) ((none, none) : Option Nat × Option Nat)
  match Span.between (← required start) (← required stop) with
  | .ok s => return s
  | .error fault => throw (.recordRange fault)

def attachment : Reader Attachment := do
  let word ← name
  gap
  expect "("
  gap
  let value ← match word with
    | "Vector" => Attachment.vector <$> sequence (binary .single)
    | "Tag" => Attachment.tag <$> text
    | _ => refuse
  let _ ← comma
  expect ")"
  return value

structure TokenFields where
  text : Option String
  span : Option Span
  attachments : Option (Keyed String Attachment)

def token (used : Nat) : Reader Token := do
  let found ← structure? "Token" (fun key (f : TokenFields) => do
    match key with
    | "text" => return { f with text := ← once f.text text }
    | "span" => return { f with span := ← once f.span (span (used + 2)) }
    | "attachments" =>
      return { f with attachments := ← once f.attachments (Keyed.ofList <$> mapping text attachment) }
    | _ =>
      skipField (used + 2)
      return f) ⟨none, none, none⟩
  return ⟨← required found.text, ← required found.span, found.attachments.getD .empty⟩

structure SentenceFields where
  span : Option Span
  tokens : Option (List Token)

def sentence (used : Nat) : Reader Sentence := do
  let found ← structure? "Sentence" (fun key (f : SentenceFields) => do
    match key with
    | "span" => return { f with span := ← once f.span (span (used + 2)) }
    | "tokens" => return { f with tokens := ← once f.tokens (sequence (token (used + 4))) }
    | _ =>
      skipField (used + 2)
      return f) ⟨none, none⟩
  return ⟨← required found.span, ← required found.tokens⟩

def kind : Reader Kind := do required (Kind.ofName? (← name))

def source : Reader Source := do required (Source.ofName? (← name))

structure NoteFields where
  span : Option Span
  kind : Option Kind
  source : Option Source
  confidence : Option (Binary .double)
  label : Option (Option String)

def note (lenient : Leniency) (used : Nat) : Reader NoteBody := do
  let found ← structure? "Annotation" (fun key (f : NoteFields) => do
    match key with
    | "span" => return { f with span := ← once f.span (span (used + 2)) }
    | "kind" => return { f with kind := ← once f.kind kind }
    | "source" => return { f with source := ← once f.source source }
    | "confidence" => return { f with confidence := ← once f.confidence (binary .double) }
    | "label" => return { f with label := ← once f.label (option lenient text) }
    | _ =>
      skipField (used + 2)
      return f) ⟨none, none, none, none, none⟩
  return ⟨← required found.span, ← required found.kind, ← required found.source,
    ← required found.confidence, found.label.join⟩

structure HeadingFields where
  title : Option (Option String)
  summary : Option (Option String)

def heading (lenient : Leniency) (used : Nat) : Reader Heading := do
  let found ← structure? "TitleAbstract" (fun key (f : HeadingFields) => do
    match key with
    | "title" => return { f with title := ← once f.title (option lenient text) }
    | "abstract_text" => return { f with summary := ← once f.summary (option lenient text) }
    | _ =>
      skipField (used + 2)
      return f) ⟨none, none⟩
  return ⟨found.title.join, found.summary.join⟩

structure RecordFields where
  id : Option (Option String)
  language : Option (Option String)
  docType : Option (Option String)
  heading : Option (Option Heading)
  span : Option Span
  sentences : Option (List Sentence)
  notes : Option (List NoteBody)
  tags : Option TagTable

def record (lenient : Leniency) : Reader (Record NoteBody) := do
  let found ← structure? "DocumentRecord" (fun key (f : RecordFields) => do
    match key with
    | "id" => return { f with id := ← once f.id (option lenient text) }
    | "language" => return { f with language := ← once f.language (option lenient text) }
    | "doc_type" => return { f with docType := ← once f.docType (option lenient text) }
    | "title" => return { f with heading := ← once f.heading (option lenient (heading lenient 3)) }
    | "span" => return { f with span := ← once f.span (span 2) }
    | "sentences" => return { f with sentences := ← once f.sentences (sequence (sentence 4)) }
    | "annotations" => return { f with notes := ← once f.notes (sequence (note lenient 4)) }
    | "assigned_tags" =>
      return { f with
        tags := ← once f.tags (Keyed.ofList <$> mapping source (Members.ofList <$> sequence text)) }
    | _ =>
      skipField 2
      return f) ⟨none, none, none, none, none, none, none, none⟩
  return {
    id := found.id.join
    language := found.language.join
    docType := found.docType.join
    heading := found.heading.join
    span := ← required found.span
    sentences := ← required found.sentences
    notes := found.notes.getD []
    tags := found.tags.getD .empty }

-- The attributes before a record name what it makes use of.
def enabled : Nat → Leniency → Reader Leniency
  | 0, _ => refuse
  | rounds + 1, lenient => do
    let lenient ← match ← name with
      | "implicit_some" => pure ⟨true⟩
      | "unwrap_newtypes" | "unwrap_variant_newtypes" => pure lenient
      | _ => refuse
    let separated ← comma
    let more := (← get).head?.any isNamePart
    if !separated && more then refuse
    else if more then enabled rounds lenient
    else return lenient

def attributes : Nat → Leniency → Reader Leniency
  | 0, lenient => pure lenient
  | rounds + 1, lenient => do
    gap
    if (← get).head? = some '#' then
      for sign in ["#", "!", "[", "enable", "("] do
        expect sign
        gap
      let lenient ← enabled (rounds + 1) lenient
      gap
      for sign in [")", "]"] do
        expect sign
        gap
      attributes rounds lenient
    else return lenient

-- A whole text: attributes, a record, and nothing else but gaps.
def whole : Reader (Record NoteBody) := do
  let lenient ← attributes ((← get).length + 1) ⟨false⟩
  let r ← record lenient
  gap
  if (← get).isEmpty then return r else refuse

end Marginalia.Reading

namespace Marginalia.Record

def read (text : String) : Except Fault (Record NoteBody) := do
  let (r, _) ← Reading.whole text.toList
  return r

end Marginalia.Record
