import CycleBench.Json.Number
import Mathlib.Algebra.Ring.Int.Defs
import Mathlib.Algebra.Ring.Nat
import Mathlib.Data.List.Forall2

/-!
The grammar of JSON (RFC 8259). A value is a tree in which strings and numbers are kept as they
are spelled, so what they stand for can be told apart from whether they are well formed.

A relation of the grammar takes the text before a thing, the thing, and the text behind it:
`Spells text x rest` says that `x` is spelled at the front of `text` and that `rest` follows.

* `Spells`: one value, with no blanks around it;
* `IsDocument`: one value between blanks, and nothing else;
* `Decodes`: the characters that a string stands for, its surrogate escapes in pairs.
-/

namespace CycleBench.Json

/-- A character of a string, as it stands or behind a backslash, or the code unit of a `\u`
escape. -/
inductive Piece where
  | char (c : Char)
  | unit (unit : Nat)

inductive Value where
  | null
  | boolean (value : Bool)
  | number (numeral : Numeral)
  | string (pieces : List Piece)
  | list (items : List Value)
  | object (members : List (List Piece × Value))

/-- Blanks, any number of them. -/
def Blanks (text rest : List Char) : Prop :=
  ∃ blanks : List Char, (∀ c ∈ blanks, c ∈ [' ', '\t', '\n', '\r']) ∧ text = blanks ++ rest

/-! ## Strings -/

/-- The characters that may stand behind a backslash, and what they stand for. -/
def shortEscapes : List (Char × Char) :=
  [('"', '"'), ('\\', '\\'), ('/', '/'), ('b', '\x08'), ('f', '\x0c'), ('n', '\n'),
    ('r', '\r'), ('t', '\t')]

/-- A hexadecimal digit, small or capital. -/
def IsHex (c : Char) (n : Nat) : Prop :=
  n < 16 ∧ (c = n.digitChar ∨ c = n.digitChar.toUpper)

/-- The code unit that four hexadecimal digits spell. -/
def IsUnit (a b c d : Char) (unit : Nat) : Prop :=
  ∃ i j k l, IsHex a i ∧ IsHex b j ∧ IsHex c k ∧ IsHex d l ∧
    unit = ((i * 16 + j) * 16 + k) * 16 + l

/-- The pieces of a string, from behind its opening quote. -/
inductive Pieces : List Char → List Piece → List Char → Prop
  | quote (rest) : Pieces ('"' :: rest) [] rest
  | plain {c text pieces rest} (hc : c ≠ '"' ∧ c ≠ '\\' ∧ 0x20 ≤ c.toNat)
    (h : Pieces text pieces rest) : Pieces (c :: text) (.char c :: pieces) rest
  | short {c d text pieces rest} (hc : (c, d) ∈ shortEscapes) (h : Pieces text pieces rest) :
    Pieces ('\\' :: c :: text) (.char d :: pieces) rest
  | unit {a b c d unit text pieces rest} (hunit : IsUnit a b c d unit)
    (h : Pieces text pieces rest) :
    Pieces ('\\' :: 'u' :: a :: b :: c :: d :: text) (.unit unit :: pieces) rest

def IsHighSurrogate (unit : Nat) : Prop :=
  0xd800 ≤ unit ∧ unit < 0xdc00

def IsLowSurrogate (unit : Nat) : Prop :=
  0xdc00 ≤ unit ∧ unit < 0xe000

/-- What pieces stand for. A surrogate stands for a character only as half of a pair. -/
inductive Decodes : List Piece → List Char → Prop
  | nil : Decodes [] []
  | char {pieces chars} (c) (h : Decodes pieces chars) : Decodes (.char c :: pieces) (c :: chars)
  | unit {unit pieces chars} (hhigh : ¬ IsHighSurrogate unit) (hlow : ¬ IsLowSurrogate unit)
    (h : Decodes pieces chars) : Decodes (.unit unit :: pieces) (Char.ofNat unit :: chars)
  | pair {high low pieces chars} (hhigh : IsHighSurrogate high) (hlow : IsLowSurrogate low)
    (h : Decodes pieces chars) :
    Decodes (.unit high :: .unit low :: pieces)
      (Char.ofNat (0x10000 + (high - 0xd800) * 0x400 + (low - 0xdc00)) :: chars)

/-! ## Numbers -/

def IsDigits (digits : List Char) : Prop :=
  digits ≠ [] ∧ ∀ d ∈ digits, d.isDigit = true

/-- The digits before the point: a zero stands alone. -/
def IsWhole (digits : List Char) : Prop :=
  digits = ['0'] ∨ IsDigits digits ∧ digits.head? ≠ some '0'

inductive SpellsFraction : List Char → Option (List Char) → Prop
  | none : SpellsFraction [] none
  | some {digits} (h : IsDigits digits) : SpellsFraction ('.' :: digits) (some digits)

inductive SpellsExponent : List Char → Option (Bool × List Char) → Prop
  | none : SpellsExponent [] none
  | some {mark sign down digits} (hmark : mark = 'e' ∨ mark = 'E')
    (hsign : (sign, down) ∈ [([], false), (['+'], false), (['-'], true)])
    (h : IsDigits digits) : SpellsExponent (mark :: sign ++ digits) (some (down, digits))

/-- How a number is spelled. -/
inductive SpellsNumeral : List Char → Numeral → Prop
  | mk {sign negative whole fraction exponent point power}
    (hsign : (sign, negative) ∈ [([], false), (['-'], true)]) (hwhole : IsWhole whole)
    (hfraction : SpellsFraction point fraction) (hexponent : SpellsExponent power exponent) :
    SpellsNumeral (sign ++ whole ++ point ++ power) { negative, whole, fraction, exponent }

/-! ## Values -/

/-- The key of a member, and its colon. -/
def Key (text : List Char) (key : List Piece) (rest : List Char) : Prop :=
  ∃ quoted behind, Blanks text ('"' :: quoted) ∧ Pieces quoted key behind ∧
    Blanks behind (':' :: rest)

mutual

inductive Spells : List Char → Value → List Char → Prop
  | null (rest) : Spells ('n' :: 'u' :: 'l' :: 'l' :: rest) .null rest
  | yes (rest) : Spells ('t' :: 'r' :: 'u' :: 'e' :: rest) (.boolean true) rest
  | no (rest) : Spells ('f' :: 'a' :: 'l' :: 's' :: 'e' :: rest) (.boolean false) rest
  | number {spelling numeral} (h : SpellsNumeral spelling numeral) (rest) :
    Spells (spelling ++ rest) (.number numeral) rest
  | string {text pieces rest} (h : Pieces text pieces rest) :
    Spells ('"' :: text) (.string pieces) rest
  | emptyList {text rest} (hend : Blanks text (']' :: rest)) : Spells ('[' :: text) (.list []) rest
  | list {text t₁ t₂ rest item items} (hblanks : Blanks text t₁) (hitem : Spells t₁ item t₂)
    (hitems : Items t₂ items rest) : Spells ('[' :: text) (.list (item :: items)) rest
  | emptyObject {text rest} (hend : Blanks text ('}' :: rest)) :
    Spells ('{' :: text) (.object []) rest
  | object {text t₁ t₂ t₃ rest key item members} (hkey : Key text key t₁)
    (hblanks : Blanks t₁ t₂) (hitem : Spells t₂ item t₃) (hmembers : Members t₃ members rest) :
    Spells ('{' :: text) (.object ((key, item) :: members)) rest

/-- The items behind another in a list, up to its closing bracket. -/
inductive Items : List Char → List Value → List Char → Prop
  | done {text rest} (hend : Blanks text (']' :: rest)) : Items text [] rest
  | next {text t₁ t₂ t₃ rest item items} (hcomma : Blanks text (',' :: t₁))
    (hblanks : Blanks t₁ t₂) (hitem : Spells t₂ item t₃) (hitems : Items t₃ items rest) :
    Items text (item :: items) rest

/-- The members behind another in an object, up to its closing brace. -/
inductive Members : List Char → List (List Piece × Value) → List Char → Prop
  | done {text rest} (hend : Blanks text ('}' :: rest)) : Members text [] rest
  | next {text t₁ t₂ t₃ t₄ rest key item members} (hcomma : Blanks text (',' :: t₁))
    (hkey : Key t₁ key t₂) (hblanks : Blanks t₂ t₃) (hitem : Spells t₃ item t₄)
    (hmembers : Members t₄ members rest) : Members text ((key, item) :: members) rest

end

/-- A value behind blanks. -/
def Padded (text : List Char) (x : Value) (rest : List Char) : Prop :=
  ∃ bare, Blanks text bare ∧ Spells bare x rest

/-- A text that is one value between blanks. -/
def IsDocument (text : List Char) (x : Value) : Prop :=
  ∃ behind, Padded text x behind ∧ Blanks behind []

/-! ## What a value stands for -/

/-- An integer, spelled without point and exponent; minus zero is none. -/
def IsInteger (x : Value) (i : Int) : Prop :=
  ∃ negative digits, x = .number ⟨negative, digits, none, none⟩ ∧
    let n : Int := Nat.ofDigitChars 10 digits 0
    (negative = true → n ≠ 0) ∧ i = if negative then -n else n

def IsNatural64 (x : Value) (n : Nat) : Prop :=
  IsInteger x n ∧ n < 2 ^ 64

def IsSignedByte (x : Value) (b : Int8) : Prop :=
  IsInteger x b.toInt

def IsBoolean (x : Value) (b : Bool) : Prop :=
  x = .boolean b

def IsString (x : Value) (s : String) : Prop :=
  ∃ pieces, x = .string pieces ∧ Decodes pieces s.toList

/-- `null`, or a value with a meaning. -/
def IsOptional {α : Type} (Means : Value → α → Prop) (x : Value) : Option α → Prop
  | none => x = .null
  | some value => Means x value

/-- A list whose items mean these values, in their order. -/
def IsList {α : Type} (Means : Value → α → Prop) (x : Value) (values : List α) : Prop :=
  ∃ items, x = .list items ∧ List.Forall₂ Means items values

/-- The members of an object with their keys decoded. -/
def Decoded (members : List (List Piece × Value)) (entries : List (String × Value)) : Prop :=
  List.Forall₂ (fun member entry => Decodes member.1 entry.1.toList ∧ member.2 = entry.2)
    members entries

def valuesOf (entries : List (String × Value)) (name : String) : List Value :=
  (entries.filter fun entry => entry.1 = name).map (·.2)

/-- The values given for the fields of a record: in an object by name, no field twice and other
members left aside; in a list by place, the last ones left out or none. -/
inductive Assigns (names : List String) : Value → List (Option Value) → Prop
  | object {members entries values} (hkeys : Decoded members entries)
    (hvalues : List.Forall₂ (fun name value => valuesOf entries name = value.toList)
      names values) : Assigns names (.object members) values
  | list {items absent} (hlength : items.length + absent = names.length) :
    Assigns names (.list items) (items.map some ++ List.replicate absent none)

/-- What a field holds: what the value given for it means, or its default, if it has one. -/
def Holds {α : Type} (Means : Value → α → Prop) (default : Option α) : Option Value → α → Prop
  | none, held => default = some held
  | some x, held => Means x held

/-- A value that an object gives for a field by its name, or a list by its place. -/
inductive Gives (names : List String) (name : String) : Value → Value → Prop
  | member {members pieces x} (hmember : (pieces, x) ∈ members)
    (hkey : Decodes pieces name.toList) : Gives names name (.object members) x
  | item {items x} {i : Nat} (hplace : names[i]? = some name) (hitem : items[i]? = some x) :
    Gives names name (.list items) x

/-- An object with two members for one of the fields. -/
def Repeats (names : List String) (x : Value) : Prop :=
  ∃ members first second, x = .object members ∧ [first, second].Sublist members ∧
    ∃ name ∈ names, Decodes first.1 name.toList ∧ Decodes second.1 name.toList

end CycleBench.Json
