import Marginalia.Binary
import Marginalia.Keyed
import Marginalia.Span
import Marginalia.Text.Bytes

namespace Marginalia

-- What an encoder or a tagger leaves on a token.
inductive Attachment where
  | vector (entries : List (Binary .single))
  | tag (label : String)
deriving DecidableEq

-- A leaf of the text: a surface string and the range it stands in. The two may disagree in
-- length, as after normalisation; the layout reconciles them.
structure Token where
  text : String
  span : Span
  attachments : Keyed String Attachment
deriving DecidableEq

namespace Attachment

-- Vectors are equal entry by entry, numerically.
def same : Attachment → Attachment → Bool
  | .vector a, .vector b => a.isEqv b Binary.same
  | .tag a, .tag b => a == b
  | _, _ => false

end Attachment

namespace Token

def width (text : String) : Nat := Text.bytes text.toList

def spanning (text : String) (span : Span) : Token := ⟨text, span, .empty⟩

-- The range follows the text.
def starting (text : String) (start : Nat) : Token := spanning text (.clamped start (width text))

def start (t : Token) : Nat := t.span.start

def stop (t : Token) : Nat := t.span.stop

def length (t : Token) : Nat := t.span.length

def isEmpty (t : Token) : Bool := t.span.isEmpty

def withText (t : Token) (text : String) : Token := { t with text }

def attach (t : Token) (key : String) (value : Attachment) : Token :=
  { t with attachments := t.attachments.insert key value }

def detach (t : Token) (key : String) : Token :=
  { t with attachments := t.attachments.erase key }

def attachment? (t : Token) (key : String) : Option Attachment := t.attachments.find? key

def movedTo (t : Token) (start : Nat) : Token := { t with span := t.span.movedTo start }

def shifted (t : Token) (delta : Nat) : Token := { t with span := t.span.shifted delta }

-- The text alone passes through the transform.
def mapText (transform : String → String) (t : Token) : Token := { t with text := transform t.text }

def same (a b : Token) : Bool :=
  a.text == b.text && a.span == b.span
    && a.attachments.entries.isEqv b.attachments.entries fun x y => x.1 == y.1 && x.2.same y.2

end Token

end Marginalia
