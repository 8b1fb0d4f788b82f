/-
Module: Metronome.Settings.Document
Purpose: Reading settings from a text of keys and values.
Trusted boundary: none
Main exports:
  Settings.Document.statements, Settings.ofText
-/
import Metronome.Settings
import Metronome.Text.Quoted

/-!
A document is a TOML document: lines `key = value`, headers `[key]` and comments.  Every setting is
a number or a string, so the reader knows the whole syntax of keys, strings and numbers and of
compounds only the empty ones: a choice may also be written as a table whose one entry, named after
the choice, is empty.  All else that TOML has cannot be the value of a setting, and a document that
holds it is refused like one that is malformed.
-/

namespace Metronome.Settings.Document

/-- A blank inside a line. -/
def isBlank (c : Char) : Bool :=
  c = ' ' || c = '\t'

/-- The rest after the blanks at the front. -/
def skipBlanks (cs : List Char) : List Char :=
  cs.dropWhile isBlank

/-- A character that can stand in a comment. -/
def isCommentChar (c : Char) : Bool :=
  c = '\t' || 0x20 ≤ c.toNat

/-- A character that can stand for itself in a string. -/
def isStringChar (c : Char) : Bool :=
  isCommentChar c && c.toNat ≠ 0x7F

/-- The rest after a line break. -/
def lineBreak? : List Char → Option (List Char)
  | '\n' :: rest => some rest
  | '\r' :: '\n' :: rest => some rest
  | _ => none

/-- The rest after the end of a line: blanks, perhaps a comment, and a line break or the end of the
document. -/
def lineEnd? (cs : List Char) : Option (List Char) :=
  let rest := match skipBlanks cs with
    | '#' :: comment => comment.dropWhile isCommentChar
    | rest => rest
  match rest with
  | [] => some []
  | rest => lineBreak? rest

/-- The value of a hexadecimal digit. -/
def hexValue? (c : Char) : Option Nat :=
  if c.isDigit then some (c.toNat - 48)
  else if 'a' ≤ c ∧ c ≤ 'f' then some (c.toNat - 87)
  else if 'A' ≤ c ∧ c ≤ 'F' then some (c.toNat - 55)
  else none

/-- The character with the code point that the hexadecimal digits write. -/
def scalar? (digits : List Char) : Option Char := do
  let code ← digits.foldlM (fun value c => (hexValue? c).map fun digit => 16 * value + digit) 0
  if code < 0xD800 ∨ (0xE000 ≤ code ∧ code < 0x110000) then some (Char.ofNat code) else none

/-- The character that a letter after a backslash stands for. -/
def escaped? : Char → Option Char
  | 'b' => some '\x08'
  | 't' => some '\t'
  | 'n' => some '\n'
  | 'f' => some '\x0c'
  | 'r' => some '\r'
  | '"' => some '"'
  | '\\' => some '\\'
  | _ => none

/-- Puts a character, if there is one, before the characters read after it. -/
def before (c : Option Char) (read : Option (List Char × List Char)) :
    Option (List Char × List Char) := do
  let c ← c
  let (body, rest) ← read
  some (c :: body, rest)

/-- The body of a string in double quotes, and the rest after the closing quote. -/
def basicBody : List Char → Option (List Char × List Char)
  | [] => none
  | '"' :: rest => some ([], rest)
  | '\\' :: 'u' :: a :: b :: c :: d :: rest => before (scalar? [a, b, c, d]) (basicBody rest)
  | '\\' :: 'U' :: a :: b :: c :: d :: e :: f :: g :: h :: rest =>
      before (scalar? [a, b, c, d, e, f, g, h]) (basicBody rest)
  | '\\' :: c :: rest => before (escaped? c) (basicBody rest)
  | c :: rest => if isStringChar c then before (some c) (basicBody rest) else none

/-- The body of a string in single quotes, where every character stands for itself. -/
def literalBody : List Char → Option (List Char × List Char)
  | [] => none
  | '\'' :: rest => some ([], rest)
  | c :: rest => if isStringChar c then before (some c) (literalBody rest) else none

/-- The closing quotes of a string over several lines: one or two more quotes before them belong to
the body. -/
def closing (quote : Char) (rest : List Char) : List Char × List Char :=
  match rest with
  | a :: b :: after =>
      if a = quote then if b = quote then ([quote, quote], after) else ([quote], b :: after)
      else ([], rest)
  | [a] => if a = quote then ([quote], []) else ([], rest)
  | [] => ([], [])

/-- Where a string over several lines stands: in its text, or after a backslash at the end of a
line, before and after the line break that the backslash joins. -/
inductive Joining where
  | none
  | beforeBreak
  | afterBreak
deriving DecidableEq

/-- The body of a string over several lines in double quotes. -/
def multilineBasicBody : Joining → List Char → Option (List Char × List Char)
  | _, [] => .none
  | .beforeBreak, '\n' :: rest => multilineBasicBody .afterBreak rest
  | .beforeBreak, '\r' :: '\n' :: rest => multilineBasicBody .afterBreak rest
  | .beforeBreak, c :: rest =>
      if isBlank c then multilineBasicBody .beforeBreak rest else .none
  | .afterBreak, '\n' :: rest => multilineBasicBody .afterBreak rest
  | .afterBreak, '\r' :: '\n' :: rest => multilineBasicBody .afterBreak rest
  | .afterBreak, ' ' :: rest => multilineBasicBody .afterBreak rest
  | .afterBreak, '\t' :: rest => multilineBasicBody .afterBreak rest
  | _, '"' :: '"' :: '"' :: rest => some (closing '"' rest)
  | _, '\n' :: rest => before (some '\n') (multilineBasicBody .none rest)
  | _, '\r' :: '\n' :: rest => before (some '\n') (multilineBasicBody .none rest)
  | _, '\\' :: 'u' :: a :: b :: c :: d :: rest =>
      before (scalar? [a, b, c, d]) (multilineBasicBody .none rest)
  | _, '\\' :: 'U' :: a :: b :: c :: d :: e :: f :: g :: h :: rest =>
      before (scalar? [a, b, c, d, e, f, g, h]) (multilineBasicBody .none rest)
  | _, '\\' :: '\n' :: rest => multilineBasicBody .afterBreak rest
  | _, '\\' :: '\r' :: '\n' :: rest => multilineBasicBody .afterBreak rest
  | _, '\\' :: c :: rest =>
      if isBlank c then multilineBasicBody .beforeBreak rest
      else before (escaped? c) (multilineBasicBody .none rest)
  | _, c :: rest =>
      if isStringChar c then before (some c) (multilineBasicBody .none rest) else .none

/-- The body of a string over several lines in single quotes. -/
def multilineLiteralBody : List Char → Option (List Char × List Char)
  | [] => none
  | '\'' :: '\'' :: '\'' :: rest => some (closing '\'' rest)
  | '\n' :: rest => before (some '\n') (multilineLiteralBody rest)
  | '\r' :: '\n' :: rest => before (some '\n') (multilineLiteralBody rest)
  | c :: rest => if isStringChar c then before (some c) (multilineLiteralBody rest) else none

/-- The rest without a line break at its front. -/
def skipBreak (cs : List Char) : List Char :=
  (lineBreak? cs).getD cs

/-- A string in any of its four spellings. -/
def string? : List Char → Option (List Char × List Char)
  | '"' :: '"' :: '"' :: rest => multilineBasicBody .none (skipBreak rest)
  | '"' :: rest => basicBody rest
  | '\'' :: '\'' :: '\'' :: rest => multilineLiteralBody (skipBreak rest)
  | '\'' :: rest => literalBody rest
  | _ => none

/-- A character of a key without quotes. -/
def isBareKeyChar (c : Char) : Bool :=
  c.isAlphanum || c = '-' || c = '_'

/-- One key, with the blanks around it. -/
def key? (cs : List Char) : Option (String × List Char) := do
  let (name, rest) ← match skipBlanks cs with
    | '"' :: rest => basicBody rest
    | '\'' :: rest => literalBody rest
    | cs =>
        let name := cs.takeWhile isBareKeyChar
        if name.isEmpty then none else some (name, cs.dropWhile isBareKeyChar)
  some (String.ofList name, skipBlanks rest)

/-- A key, or two keys joined by a dot; no setting lies deeper. -/
def path? (cs : List Char) : Option (List String × List Char) := do
  let (first, rest) ← key? cs
  match rest with
  | '.' :: rest =>
      let (second, rest) ← key? rest
      some ([first, second], rest)
  | rest => some ([first], rest)

/-- A value a setting can have. -/
inductive Value where
  | text (value : String)
  | whole (value : Int)
  | real (value : Float)
  /-- A table with one entry, which is empty. -/
  | choice (name : String)
  /-- A table or a list without entries. -/
  | empty

/-- Digits in groups: single underscores may stand between them. -/
def ungroup (isDigit : Char → Bool) (afterDigit : Bool) : List Char → Option (List Char)
  | [] => if afterDigit then some [] else none
  | c :: rest =>
      if c = '_' then if afterDigit then ungroup isDigit false rest else none
      else if isDigit c then (ungroup isDigit true rest).map (c :: ·)
      else none

/-- The number that digits of a base write. -/
def valueOf (base : Nat) (digits : List Char) : Nat :=
  digits.foldl (fun value c => base * value + (hexValue? c).getD 0) 0

/-- A sign, if there is one, and the rest. -/
def splitSign : List Char → Bool × List Char
  | '+' :: rest => (false, rest)
  | '-' :: rest => (true, rest)
  | rest => (false, rest)

/-- A decimal number without superfluous zeros in front. -/
def decimalDigits? (cs : List Char) : Option (List Char) := do
  let digits ← ungroup Char.isDigit false cs
  if digits.length ≠ 1 ∧ digits.head? = some '0' then none else some digits

/-- A whole number in the range of 64 bits with a sign. -/
def inRange? (value : Int) : Option Value :=
  if Int64.minValue.toInt ≤ value ∧ value ≤ Int64.maxValue.toInt then some (.whole value)
  else none

/-- A whole number: decimal with an optional sign, or with the mark of another base. -/
def whole? : List Char → Option Value
  | '0' :: 'x' :: cs => do
      inRange? (valueOf 16 (← ungroup (fun c => (hexValue? c).isSome) false cs))
  | '0' :: 'o' :: cs => do
      inRange? (valueOf 8 (← ungroup (fun c => '0' ≤ c && c ≤ '7') false cs))
  | '0' :: 'b' :: cs => do
      inRange? (valueOf 2 (← ungroup (fun c => c = '0' || c = '1') false cs))
  | cs => do
      let (negative, cs) := splitSign cs
      let value : Int := valueOf 10 (← decimalDigits? cs)
      inRange? (if negative then -value else value)

/-- The double nearest to `digits * 10 ^ exponent`.  An exponent far outside the range of doubles
decides the value alone. -/
def decimalValue (digits : List Char) (exponent : Int) : Float :=
  let significand := valueOf 10 digits
  let magnitude := exponent + digits.length
  if significand = 0 ∨ magnitude < -400 then 0
  else if 400 + (digits.length : Int) < magnitude then 1 / 0
  else (Number.Decimal.mk significand exponent).toFloat

/-- The exponent of a number, after its mark. -/
def exponent? (cs : List Char) : Option Int := do
  let (negative, cs) := splitSign cs
  let value : Int := valueOf 10 (← ungroup Char.isDigit false cs)
  some (if negative then -value else value)

/-- The mark of an exponent. -/
def isExponentMark (c : Char) : Bool :=
  c = 'e' || c = 'E'

/-- A number with a fraction, an exponent or both, one of the special numbers otherwise.  A positive
number too large for a double is refused; a negative one is the negative infinity. -/
def real? (cs : List Char) : Option Value := do
  let (negative, cs) := splitSign cs
  let signed := fun (x : Float) => Value.real (if negative then -x else x)
  if cs = ['i', 'n', 'f'] then return signed (1 / 0)
  if cs = ['n', 'a', 'n'] then return signed (0 / 0)
  let mantissa := cs.takeWhile fun c => !isExponentMark c
  let whole ← decimalDigits? (mantissa.takeWhile (· ≠ '.'))
  let fraction ← match mantissa.dropWhile (· ≠ '.') with
    | '.' :: digits => ungroup Char.isDigit false digits
    | _ => some []
  let exponent ← match cs.dropWhile fun c => !isExponentMark c with
    | _ :: exponent => exponent? exponent
    | [] => if fraction.isEmpty then none else some 0
  let value := decimalValue (whole ++ fraction) (exponent - fraction.length)
  if value.isFinite || negative then some (signed value) else none

/-- A character that ends an unquoted value. -/
def endsValue (c : Char) : Bool :=
  isBlank c || c = '\n' || c = '\r' || c = '#'

/-- The rest after the bracket that closes an empty list; line breaks and comments may stand before
it. -/
def emptyList? (inComment : Bool) : List Char → Option (List Char)
  | [] => none
  | '\n' :: rest => emptyList? false rest
  | '\r' :: '\n' :: rest => emptyList? false rest
  | c :: rest =>
      if inComment then if isCommentChar c then emptyList? true rest else none
      else if c = ']' then some rest
      else if c = '#' then emptyList? true rest
      else if isBlank c then emptyList? false rest
      else none

/-- The rest after an empty table or an empty list. -/
def empty? : List Char → Option (List Char)
  | '\x7b' :: rest =>
      match skipBlanks rest with
      | '\x7d' :: rest => some rest
      | _ => none
  | '[' :: rest => emptyList? false rest
  | _ => none

/-- A table with one entry that is empty. -/
def choice? : List Char → Option (String × List Char)
  | '\x7b' :: rest => do
      let (name, rest) ← key? rest
      match rest with
      | '=' :: rest =>
          match skipBlanks (← empty? (skipBlanks rest)) with
          | '\x7d' :: rest => some (name, rest)
          | _ => none
      | _ => none
  | _ => none

/-- A value and the rest after it. -/
def value? (cs : List Char) : Option (Value × List Char) :=
  match cs with
  | '"' :: _ | '\'' :: _ => (string? cs).map fun (body, rest) => (.text (String.ofList body), rest)
  | '\x7b' :: _ | '[' :: _ =>
      match choice? cs with
      | some (name, rest) => some (.choice name, rest)
      | none => (empty? cs).map fun rest => (.empty, rest)
  | _ => do
      let token := cs.takeWhile fun c => !endsValue c
      let value ← (whole? token).or (real? token)
      some (value, cs.dropWhile fun c => !endsValue c)

/-- One statement of a document. -/
inductive Statement where
  | assign (path : List String) (value : Value)
  | header (path : List String)

/-- A statement and the rest after its line. -/
def statement? (cs : List Char) : Option (Statement × List Char) :=
  match cs with
  | '[' :: rest => do
      let (path, rest) ← path? rest
      match rest with
      | ']' :: rest => some (.header path, ← lineEnd? rest)
      | _ => none
  | _ => do
      let (path, rest) ← path? cs
      match rest with
      | '=' :: rest =>
          let (value, rest) ← value? (skipBlanks rest)
          some (.assign path value, ← lineEnd? rest)
      | _ => none

/-- The statements of the lines that `fuel` suffices for.  Every round reads a line. -/
def statementsWithin : Nat → List Char → Option (List Statement)
  | 0, _ => none
  | fuel + 1, cs =>
      match skipBlanks cs with
      | [] => some []
      | '#' :: rest => do statementsWithin fuel (← lineEnd? ('#' :: rest))
      | '\n' :: rest => statementsWithin fuel rest
      | '\r' :: rest => do statementsWithin fuel (← lineBreak? ('\r' :: rest))
      | cs => do
          let (statement, rest) ← statement? cs
          (statementsWithin fuel rest).map (statement :: ·)

/-- The statements of a document.  A byte order mark at its start is skipped. -/
def statements (text : String) : Option (List Statement) :=
  let cs := match text.toList with
    | '\ufeff' :: cs => cs
    | cs => cs
  statementsWithin (cs.length + 1) cs

/-- The table that assignments go to. -/
inductive Section where
  | root
  | waitTiming
  | choice

/-- The settings gathered so far, and where the document stands. -/
structure Draft where
  timeBase : Option Float := none
  maxTicks : Option Nat := none
  waitTiming : Option WaitTiming := none
  /-- The timing has a header of its own. -/
  timingHeader : Bool := false
  /-- The timing was assigned before any header, and is closed to headers. -/
  timingClosed : Bool := false
  current : Section := .root

/-- The timing with a name. -/
def timing? (name : String) : Option WaitTiming :=
  [WaitTiming.ideal, WaitTiming.triggered].find? fun timing => timing.label = name

namespace Draft

/-- Fixes the timing, once. -/
def setTiming (draft : Draft) (name : String) : Option Draft :=
  match draft.waitTiming with
  | some _ => none
  | none => (timing? name).map fun timing => { draft with waitTiming := some timing }

/-- An assignment before any header. -/
def assignRoot (draft : Draft) : List String → Value → Option Draft
  | ["time_base"], value => do
      let timeBase ← match value with
        | .whole value => some (Float.ofInt value)
        | .real value => some value
        | _ => none
      if draft.timeBase.isSome then none else some { draft with timeBase := some timeBase }
  | ["max_ticks"], .whole value =>
      if value < 0 ∨ draft.maxTicks.isSome then none
      else some { draft with maxTicks := some value.toNat }
  | ["wait_timing"], .text name | ["wait_timing"], .choice name | ["wait_timing", name], .empty =>
      (draft.setTiming name).map fun draft => { draft with timingClosed := true }
  | _, _ => none

/-- The effect of one statement.  A key that is no setting, a second value and a value of another
type have none, and the document is refused. -/
def step (draft : Draft) : Statement → Option Draft
  | .assign path value =>
      match draft.current, path, value with
      | .root, path, value => draft.assignRoot path value
      | .waitTiming, [name], .empty => draft.setTiming name
      | _, _, _ => none
  | .header ["wait_timing"] =>
      if draft.timingHeader || draft.timingClosed then none
      else some { draft with timingHeader := true, current := .waitTiming }
  | .header ["wait_timing", name] =>
      (draft.setTiming name).map fun draft => { draft with current := .choice }
  | .header _ => none

/-- The settings of a finished draft, with defaults for those it does not mention. -/
def finish (draft : Draft) : Option Settings :=
  if draft.timingHeader && draft.waitTiming.isNone then none
  else
    let defaults : Settings := {}
    some {
      timeBase := draft.timeBase.getD defaults.timeBase
      maxTicks := draft.maxTicks.getD defaults.maxTicks
      waitTiming := draft.waitTiming.getD defaults.waitTiming }

end Draft

/-- The settings a document asks for. -/
def settings? (text : String) : Option Settings := do
  let draft ← (← statements text).foldlM Draft.step {}
  draft.finish

end Document

/-- Settings from a document.  One that cannot be read is reported before a value out of range. -/
def ofText (text : String) : Except Fault Settings := do
  match Document.settings? text with
  | none => .error (.setting .unreadable)
  | some settings =>
      settings.check
      return settings

end Metronome.Settings
