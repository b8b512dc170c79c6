-- JSON texts (RFC 8259) over bytes, read by a pushdown machine. The machine
-- takes one byte at a time, so that what a text means can be followed across
-- any cut of the text. A byte from 0x80 on is a character of a string like
-- any other.
import Mathlib.Data.List.Basic
import Mathlib.Data.UInt

namespace json

abbrev Text := List UInt8

/-- A value of JSON. A number keeps its spelling, a string is given by its decoded bytes,
and an object keeps its members in order. -/
inductive Value
  | null
  | bool (b : Bool)
  | num (literal : Text)
  | str (s : Text)
  | arr (elems : List Value)
  | obj (members : List (Text × Value))

abbrev Member := Text × Value

/-- The bytes of an ASCII text. -/
def ascii (s : String) : Text := s.toList.map Char.toUInt8

@[simp] def quote : UInt8 := 0x22
@[simp] def backslash : UInt8 := 0x5C
@[simp] def lbrace : UInt8 := 0x7B
@[simp] def rbrace : UInt8 := 0x7D
@[simp] def lbracket : UInt8 := 0x5B
@[simp] def rbracket : UInt8 := 0x5D
@[simp] def colon : UInt8 := 0x3A
@[simp] def comma : UInt8 := 0x2C

def isSpace (c : UInt8) : Bool := c = 0x20 || c = 0x09 || c = 0x0A || c = 0x0D

def isDigit (c : UInt8) : Bool := 0x30 ≤ c && c ≤ 0x39

/-! ## Strings -/

/-- A piece of a string: a byte as it stands or by a short escape, or a code unit of a
`\u` escape. -/
inductive Piece
  | byte (b : UInt8)
  | code (n : Nat)
  deriving DecidableEq

/-- The UTF-8 bytes of a code point. A surrogate on its own is encoded like any other
code point. -/
def utf8 (n : Nat) : Text :=
  if n < 0x80 then [n.toUInt8]
  else if n < 0x800 then [(0xC0 + n / 64).toUInt8, (0x80 + n % 64).toUInt8]
  else if n < 0x10000 then
    [(0xE0 + n / 4096).toUInt8, (0x80 + n / 64 % 64).toUInt8, (0x80 + n % 64).toUInt8]
  else
    [(0xF0 + n / 262144).toUInt8, (0x80 + n / 4096 % 64).toUInt8, (0x80 + n / 64 % 64).toUInt8,
      (0x80 + n % 64).toUInt8]

/-- The bytes of a string. Two code units that are a surrogate pair stand for one code point. -/
def decode : List Piece → Text
  | [] => []
  | .byte b :: ps => b :: decode ps
  | .code hi :: .code lo :: ps =>
    if 0xD800 ≤ hi ∧ hi < 0xDC00 ∧ 0xDC00 ≤ lo ∧ lo < 0xE000 then
      utf8 (0x10000 + (hi - 0xD800) * 0x400 + (lo - 0xDC00)) ++ decode ps
    else utf8 hi ++ decode (.code lo :: ps)
  | .code n :: ps => utf8 n ++ decode ps

/-- The byte of a short escape. -/
def shortEscape (c : UInt8) : Option UInt8 :=
  if c = quote then some quote
  else if c = backslash then some backslash
  else if c = 0x2F then some 0x2F
  else if c = 0x62 then some 0x08
  else if c = 0x66 then some 0x0C
  else if c = 0x6E then some 0x0A
  else if c = 0x72 then some 0x0D
  else if c = 0x74 then some 0x09
  else none

def hexDigit (c : UInt8) : Option Nat :=
  if 0x30 ≤ c ∧ c ≤ 0x39 then some (c.toNat - 0x30)
  else if 0x41 ≤ c ∧ c ≤ 0x46 then some (c.toNat - 0x37)
  else if 0x61 ≤ c ∧ c ≤ 0x66 then some (c.toNat - 0x57)
  else none

/-! ## Numbers -/

/-- How far a number has been read. -/
inductive NumState
  | minus
  | zero
  | int
  | dot
  | frac
  | exp
  | expSign
  | expDigits
  deriving DecidableEq

namespace NumState

def start (c : UInt8) : Option NumState :=
  if c = 0x2D then some .minus
  else if c = 0x30 then some .zero
  else if isDigit c then some .int
  else none

def next (s : NumState) (c : UInt8) : Option NumState :=
  match s with
  | .minus => if c = 0x30 then some .zero else if isDigit c then some .int else none
  | .zero => if c = 0x2E then some .dot else if c = 0x65 || c = 0x45 then some .exp else none
  | .int =>
    if isDigit c then some .int
    else if c = 0x2E then some .dot
    else if c = 0x65 || c = 0x45 then some .exp
    else none
  | .dot => if isDigit c then some .frac else none
  | .frac => if isDigit c then some .frac else if c = 0x65 || c = 0x45 then some .exp else none
  | .exp =>
    if c = 0x2B || c = 0x2D then some .expSign else if isDigit c then some .expDigits else none
  | .expSign => if isDigit c then some .expDigits else none
  | .expDigits => if isDigit c then some .expDigits else none

/-- A number can end here. -/
def accepts : NumState → Bool
  | .zero => true
  | .int => true
  | .frac => true
  | .expDigits => true
  | _ => false

end NumState

/-- The three literal names. -/
inductive Word
  | null
  | true
  | false
  deriving DecidableEq

namespace Word

def letters : Word → Text
  | .null => ascii "null"
  | .true => ascii "true"
  | .false => ascii "false"

def value : Word → Value
  | .null => .null
  | .true => .bool Bool.true
  | .false => .bool Bool.false

end Word

/-! ## The machine -/

/-- An array or an object that is open, with what has been read of it. `key` is the key of
the member that is being read. -/
inductive Frame
  | arr (elems : List Value)
  | obj (members : List Member) (key : Text)

/-- What has to come next, or what is being read. -/
inductive Mode
  | value
  | arrStart
  | objStart
  | key
  | colon
  | after
  | str (isKey : Bool) (pieces : List Piece)
  | esc (isKey : Bool) (pieces : List Piece)
  | hex (isKey : Bool) (pieces : List Piece) (digits code : Nat)
  | num (literal : Text) (s : NumState)
  | word (w : Word) (read : Nat)
  | done (v : Value)

structure State where
  stack : List Frame
  mode : Mode

/-- A value has been read whole. -/
def complete : List Frame → Value → State
  | [], v => ⟨[], .done v⟩
  | .arr es :: fs, v => ⟨.arr (es ++ [v]) :: fs, .after⟩
  | .obj ms k :: fs, v => ⟨.obj (ms ++ [(k, v)]) [] :: fs, .after⟩

def startValue (fs : List Frame) (c : UInt8) : Option State :=
  if c = lbrace then some ⟨.obj [] [] :: fs, .objStart⟩
  else if c = lbracket then some ⟨.arr [] :: fs, .arrStart⟩
  else if c = quote then some ⟨fs, .str false []⟩
  else if c = 0x6E then some ⟨fs, .word .null 1⟩
  else if c = 0x74 then some ⟨fs, .word .true 1⟩
  else if c = 0x66 then some ⟨fs, .word .false 1⟩
  else (NumState.start c).map fun s => ⟨fs, .num [c] s⟩

/-- A byte that follows a value which is an element or a member. -/
def afterValue (fs : List Frame) (c : UInt8) : Option State :=
  if isSpace c then some ⟨fs, .after⟩
  else match fs with
    | .arr es :: fs =>
      if c = comma then some ⟨.arr es :: fs, .value⟩
      else if c = rbracket then some (complete fs (.arr es))
      else none
    | .obj ms k :: fs =>
      if c = comma then some ⟨.obj ms k :: fs, .key⟩
      else if c = rbrace then some (complete fs (.obj ms))
      else none
    | [] => none

/-- A byte that follows a value. -/
def settle : State → UInt8 → Option State
  | ⟨fs, .after⟩, c => afterValue fs c
  | ⟨fs, .done v⟩, c => if isSpace c then some ⟨fs, .done v⟩ else none
  | _, _ => none

/-- A string has been read whole. -/
def endString (fs : List Frame) (isKey : Bool) (s : Text) : Option State :=
  if isKey then
    match fs with
    | .obj ms _ :: fs => some ⟨.obj ms s :: fs, .colon⟩
    | _ => none
  else some (complete fs (.str s))

def step : State → UInt8 → Option State
  | ⟨fs, .value⟩, c => if isSpace c then some ⟨fs, .value⟩ else startValue fs c
  | ⟨fs, .arrStart⟩, c =>
    if isSpace c then some ⟨fs, .arrStart⟩
    else match fs with
      | .arr es :: fs' =>
        if c = rbracket then some (complete fs' (.arr es)) else startValue fs c
      | _ => none
  | ⟨fs, .objStart⟩, c =>
    if isSpace c then some ⟨fs, .objStart⟩
    else match fs with
      | .obj ms _ :: fs' =>
        if c = rbrace then some (complete fs' (.obj ms))
        else if c = quote then some ⟨fs, .str true []⟩
        else none
      | _ => none
  | ⟨fs, .key⟩, c =>
    if isSpace c then some ⟨fs, .key⟩ else if c = quote then some ⟨fs, .str true []⟩ else none
  | ⟨fs, .colon⟩, c =>
    if isSpace c then some ⟨fs, .colon⟩ else if c = colon then some ⟨fs, .value⟩ else none
  | ⟨fs, .after⟩, c => afterValue fs c
  | ⟨fs, .str isKey ps⟩, c =>
    if c = quote then endString fs isKey (decode ps)
    else if c = backslash then some ⟨fs, .esc isKey ps⟩
    else if c < 0x20 then none
    else some ⟨fs, .str isKey (ps ++ [.byte c])⟩
  | ⟨fs, .esc isKey ps⟩, c =>
    if c = 0x75 then some ⟨fs, .hex isKey ps 0 0⟩
    else (shortEscape c).map fun b => ⟨fs, .str isKey (ps ++ [.byte b])⟩
  | ⟨fs, .hex isKey ps digits code⟩, c =>
    (hexDigit c).map fun d =>
      if digits = 3 then ⟨fs, .str isKey (ps ++ [.code (code * 16 + d)])⟩
      else ⟨fs, .hex isKey ps (digits + 1) (code * 16 + d)⟩
  | ⟨fs, .num literal s⟩, c =>
    match s.next c with
    | some s' => some ⟨fs, .num (literal ++ [c]) s'⟩
    | none => if s.accepts then settle (complete fs (.num literal)) c else none
  | ⟨fs, .word w read⟩, c =>
    if w.letters[read]? = some c then
      if read + 1 = w.letters.length then some (complete fs w.value)
      else some ⟨fs, .word w (read + 1)⟩
    else none
  | ⟨fs, .done v⟩, c => if isSpace c then some ⟨fs, .done v⟩ else none

def run (σ : State) : Text → Option State
  | [] => some σ
  | c :: t => (step σ c).bind fun σ' => run σ' t

/-- The value of a text that ends here. -/
def finish : State → Option Value
  | ⟨[], .done v⟩ => some v
  | ⟨[], .num literal s⟩ => if s.accepts then some (.num literal) else none
  | _ => none

def start : State := ⟨[], .value⟩

def eval (σ : State) (t : Text) : Option Value := (run σ t).bind finish

/-- The value of a JSON text, and `none` for any other text. -/
def parse (t : Text) : Option Value := eval start t

theorem run_append (σ : State) (a b : Text) :
    run σ (a ++ b) = (run σ a).bind fun σ' => run σ' b := by
  induction a generalizing σ with
  | nil => rfl
  | cons c a ih =>
    simp only [List.cons_append, run]
    cases step σ c with
    | none => rfl
    | some σ' => exact ih σ'

theorem eval_append (σ : State) (a b : Text) :
    eval σ (a ++ b) = (run σ a).bind fun σ' => eval σ' b := by
  rw [eval, run_append]
  cases run σ a <;> rfl

end json
