import BodySpec.Json.Written

/-!
# Reading JSON

The reader is a machine that takes one character at a time: a stack of the containers that are open and a phase that
says what may come next. `read? limit` is its run over a whole text, where at most `limit` containers are open at once.
Blanks are the space, the tab, the line feed and the carriage return, and nothing else: in particular no byte order
mark.
-/

namespace BodySpec

namespace Reader

/-- A container that waits for a value, with what it holds already, last first. -/
inductive Frame where
  | items (done : List Written)
  | member (done : List (List TextUnit × Written)) (key : List TextUnit)

/-- What a string is read for: a value, or a key of an object with the members given. -/
inductive Role where
  | value
  | key (done : List (List TextUnit × Written))

/-- How far an escape is read: none, the backslash, or some digits of a `\u` escape with their value. -/
inductive Escape where
  | none
  | backslash
  | hex (count : Nat) (value : Nat)

/-- What comes next. -/
inductive Phase where
  | value
  /-- A value, or the end of the array just opened. -/
  | item
  /-- A key; just after the opening brace also the closing one. -/
  | key (done : List (List TextUnit × Written)) (closable : Bool)
  | colon (done : List (List TextUnit × Written)) (key : List TextUnit)
  /-- More of a literal name or a numeral, whose characters so far are given last first. -/
  | bare (seen : List Char)
  /-- More of a string, whose pieces so far are given last first. -/
  | text (role : Role) (seen : List TextUnit) (escape : Escape)
  /-- What may follow a value. -/
  | after (done : Written)

structure State where
  /-- The innermost container first. -/
  frames : List Frame
  phase : Phase

def isBlank (c : Char) : Bool := c == ' ' || c == '\t' || c == '\n' || c == '\r'

/-- The characters of literal names and numerals. -/
def isBare (c : Char) : Bool := c.isAlphanum || c == '-' || c == '+' || c == '.'

def hexDigit? (c : Char) : Option Nat :=
  if '0' ≤ c ∧ c ≤ '9' then some (c.toNat - '0'.toNat)
  else if 'a' ≤ c ∧ c ≤ 'f' then some (c.toNat - 'a'.toNat + 10)
  else if 'A' ≤ c ∧ c ≤ 'F' then some (c.toNat - 'A'.toNat + 10)
  else none

/-- The characters of the short escapes. -/
def shortEscape? (c : Char) : Option Char :=
  match c with
  | '"' => some '"'
  | '\\' => some '\\'
  | '/' => some '/'
  | 'b' => some '\x08'
  | 'f' => some '\x0c'
  | 'n' => some '\n'
  | 'r' => some '\r'
  | 't' => some '\t'
  | _ => none

/-- The first character of a value. -/
def begin? (limit : Nat) (frames : List Frame) (c : Char) : Option State :=
  if c = '"' then some ⟨frames, .text .value [] .none⟩
  else if c = '[' then if frames.length < limit then some ⟨.items [] :: frames, .item⟩ else none
  else if c = '\x7b' then if frames.length < limit then some ⟨frames, .key [] true⟩ else none
  else if isBare c then some ⟨frames, .bare [c]⟩
  else none

/-- A character after a value that is complete. -/
def after? (frames : List Frame) (v : Written) (c : Char) : Option State :=
  if isBlank c then some ⟨frames, .after v⟩
  else
    match frames with
    | [] => none
    | .items done :: outer =>
      if c = ',' then some ⟨.items (v :: done) :: outer, .value⟩
      else if c = ']' then some ⟨outer, .after (.array (v :: done).reverse)⟩
      else none
    | .member done key :: outer =>
      if c = ',' then some ⟨outer, .key ((key, v) :: done) false⟩
      else if c = '\x7d' then some ⟨outer, .after (.object ((key, v) :: done).reverse)⟩
      else none

/-- A character within a string. Control characters below U+0020 are refused. -/
def inText? (frames : List Frame) (role : Role) (seen : List TextUnit) (escape : Escape) (c : Char) : Option State :=
  match escape with
  | .none =>
    if c = '"' then
      match role with
      | .value => some ⟨frames, .after (.string seen.reverse)⟩
      | .key done => some ⟨frames, .colon done seen.reverse⟩
    else if c = '\\' then some ⟨frames, .text role seen .backslash⟩
    else if c.toNat < 0x20 then none
    else some ⟨frames, .text role (.scalar c :: seen) .none⟩
  | .backslash =>
    if c = 'u' then some ⟨frames, .text role seen (.hex 0 0)⟩
    else (shortEscape? c).map fun d => ⟨frames, .text role (.scalar d :: seen) .none⟩
  | .hex count value =>
    (hexDigit? c).map fun d =>
      if count = 3 then ⟨frames, .text role (.unit (value * 16 + d) :: seen) .none⟩
      else ⟨frames, .text role seen (.hex (count + 1) (value * 16 + d))⟩

/-- One character. -/
def step? (limit : Nat) (s : State) (c : Char) : Option State :=
  match s.phase with
  | .value => if isBlank c then some s else begin? limit s.frames c
  | .item =>
    if isBlank c then some s
    else if c = ']' then some ⟨s.frames.tail, .after (.array [])⟩
    else begin? limit s.frames c
  | .key done closable =>
    if isBlank c then some s
    else if c = '"' then some ⟨s.frames, .text (.key done) [] .none⟩
    else if c = '\x7d' ∧ closable then some ⟨s.frames, .after (.object [])⟩
    else none
  | .colon done key =>
    if isBlank c then some s
    else if c = ':' then some ⟨.member done key :: s.frames, .value⟩
    else none
  | .bare seen =>
    if isBare c then some ⟨s.frames, .bare (c :: seen)⟩
    else do
      let v ← Written.ofBare? seen.reverse
      after? s.frames v c
  | .text role seen escape => inText? s.frames role seen escape c
  | .after v => after? s.frames v c

def start : State := ⟨[], .value⟩

/-- The text of a finished run. -/
def State.finish? (s : State) : Option Written :=
  match s with
  | ⟨[], .after v⟩ => some v
  | ⟨[], .bare seen⟩ => Written.ofBare? seen.reverse
  | _ => none

/-- The run over some characters. -/
def run? (limit : Nat) (s : State) (cs : List Char) : Option State := cs.foldlM (step? limit) s

theorem run?_append (limit : Nat) (s : State) (cs ds : List Char) :
    run? limit s (cs ++ ds) = (run? limit s cs).bind (run? limit · ds) := by
  simp only [run?, List.foldlM_append]
  rfl

end Reader

/-- The JSON text that the characters spell, with at most `limit` containers open at once. -/
def Written.read? (limit : Nat) (cs : List Char) : Option Written :=
  (Reader.run? limit Reader.start cs).bind Reader.State.finish?

namespace Json

/-- The nesting that is read. -/
def maxDepth : Nat := 127

/-- The value that a text spells. -/
def read? (limit : Nat) (text : String) : Option Json := (Written.read? limit text.toList).bind Written.value?

/-- The value that bytes spell in UTF-8. -/
def ofBytes? (bytes : ByteArray) : Option Json := (String.fromUTF8? bytes).bind (read? maxDepth)

end Json

end BodySpec
