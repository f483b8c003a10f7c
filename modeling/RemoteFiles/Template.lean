/-!
# Templates

Texts with holes.  In the text of a template `{name}` is a hole, and `{{` and `}}` stand for single
braces; everything else stands for itself.  A template is read from left to right into tokens up
to the first place where it is malformed, and is then filled token by token, so an unbound hole is
reported before a malformed place that comes after it.

## Main definitions

* `Template.Token`, `Template.sourceOf` — tokens and the text they are written as.
* `Template.read` — the tokens of a text, and what stopped the reading.
* `Template.Params` — values by name.
* `Template.fill`, `Template.render` — a template with its holes filled.
-/

namespace RemoteFiles

/-- Why a template cannot be rendered.  Offsets count the bytes before the place. -/
inductive TemplateError where
  /-- A hole has no value. -/
  | missingParameter (name : String)
  /-- A hole is opened and not closed before the next opening brace or the end. -/
  | unclosedPlaceholder (offset : Nat)
  /-- A hole has no name. -/
  | emptyPlaceholder (offset : Nat)
  /-- A closing brace stands alone. -/
  | unmatchedBrace (offset : Nat)
  deriving DecidableEq, Repr

/-- The text of the error. -/
def TemplateError.message : TemplateError → String
  | missingParameter name => "missing parameter '" ++ name ++ "'"
  | unclosedPlaceholder offset => "unclosed placeholder at byte " ++ toString offset
  | emptyPlaceholder offset => "empty placeholder at byte " ++ toString offset
  | unmatchedBrace offset => "unmatched '\x7d' at byte " ++ toString offset

namespace Template

/-- A character that stands for itself, or a hole. -/
inductive Token where
  | plain (c : Char)
  | hole (name : String)
  deriving DecidableEq, Repr

/-- How a token is written: a brace twice, a hole in braces. -/
def Token.source : Token → List Char
  | plain c => if c = '\x7b' ∨ c = '\x7d' then [c, c] else [c]
  | hole name => '\x7b' :: name.toList ++ ['\x7d']

/-- The text of a list of tokens. -/
def sourceOf (ts : List Token) : List Char := ts.flatMap Token.source

/-- The number of bytes of a list of characters. -/
def byteSize (cs : List Char) : Nat := cs.foldr (fun c n => c.utf8Size + n) 0

/-- How a template can be malformed. -/
inductive Fault where
  | unclosed
  | empty
  | unmatched
  deriving DecidableEq, Repr

/-- The error for a malformed place. -/
def Fault.error (offset : Nat) : Fault → TemplateError
  | unclosed => .unclosedPlaceholder offset
  | empty => .emptyPlaceholder offset
  | unmatched => .unmatchedBrace offset

/-- What reading a template gives: the tokens up to the first malformed place, and how that place
is malformed. -/
structure Reading where
  tokens : List Token
  fault : Option Fault
  deriving DecidableEq, Repr

/-- One more token at the front. -/
def Reading.cons (t : Token) (r : Reading) : Reading := ⟨t :: r.tokens, r.fault⟩

mutual

/-- Read a template's text. -/
def read : List Char → Reading
  | [] => ⟨[], none⟩
  | '\x7b' :: '\x7b' :: s => (read s).cons (.plain '\x7b')
  | '\x7b' :: s => readHole [] s
  | '\x7d' :: '\x7d' :: s => (read s).cons (.plain '\x7d')
  | '\x7d' :: _ => ⟨[], some .unmatched⟩
  | c :: s => (read s).cons (.plain c)

/-- Read on inside a hole; `name` is what has been read of its name. -/
def readHole (name : List Char) : List Char → Reading
  | [] => ⟨[], some .unclosed⟩
  | '\x7b' :: _ => ⟨[], some .unclosed⟩
  | '\x7d' :: s =>
    if name = [] then ⟨[], some .empty⟩ else (read s).cons (.hole (String.ofList name))
  | c :: s => readHole (name ++ [c]) s

end

/-- Values by name; of two with one name the one in front counts. -/
structure Params where
  bindings : List (String × String) := []
  deriving DecidableEq, Repr

namespace Params

/-- Bind a name, in place of any value it had. -/
def bind (ps : Params) (name value : String) : Params := ⟨(name, value) :: ps.bindings⟩

/-- The value of a name. -/
def find? (ps : Params) (name : String) : Option String := ps.bindings.lookup name

end Params

/-- The text of a list of tokens with every hole filled.  A value is copied and not read again. -/
def fill (ps : Params) : List Token → Except TemplateError (List Char)
  | [] => .ok []
  | .plain c :: ts => (fill ps ts).map (c :: ·)
  | .hole name :: ts =>
    match ps.find? name with
    | none => .error (.missingParameter name)
    | some value => (fill ps ts).map (value.toList ++ ·)

/-- Fill the tokens of a reading, then report the malformed place if there is one. -/
def Reading.fill (ps : Params) (r : Reading) : Except TemplateError String :=
  match Template.fill ps r.tokens, r.fault with
  | .error e, _ => .error e
  | .ok _, some f => .error (f.error (byteSize (sourceOf r.tokens)))
  | .ok out, none => .ok (String.ofList out)

/-- Render a template given as text. -/
def render (template : String) (ps : Params) : Except TemplateError String :=
  (read template.toList).fill ps

@[simp] theorem sourceOf_nil : sourceOf [] = [] := rfl

@[simp] theorem sourceOf_cons (t : Token) (ts : List Token) :
    sourceOf (t :: ts) = t.source ++ sourceOf ts := rfl

end Template
end RemoteFiles
