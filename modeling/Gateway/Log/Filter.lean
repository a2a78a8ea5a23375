import Gateway.Text.Blank
import Gateway.Text.Split

/-! Which parts of a program log how much, written as directives such as `info` or `net=debug`. -/

namespace Gateway.Log

inductive Level where
  | off
  | error
  | warn
  | info
  | debug
  | trace
deriving DecidableEq, Repr

namespace Level

def text : Level → String
  | off => "off"
  | error => "error"
  | warn => "warn"
  | info => "info"
  | debug => "debug"
  | trace => "trace"

/-- A name in any case, or a number; an empty text is the level of errors. -/
def ofText? (s : String) : Option Level :=
  match s.toLower with
  | "off" | "0" => some off
  | "error" | "1" | "" => some error
  | "warn" | "2" => some warn
  | "info" | "3" => some info
  | "debug" | "4" => some debug
  | "trace" | "5" => some trace
  | _ => none

end Level

/-- What a directive is about: a part of the program, and a span in it with fields. -/
structure Directive where
  target : Option String := none
  span : Option String := none
  fields : List String := []
  level : Level := .trace
deriving DecidableEq, Repr

namespace Directive

/-- Nothing after the equals sign stands for everything. -/
def level? (s : List Char) : Option Level :=
  if s.isEmpty then some .trace else Level.ofText? (String.ofList s)

def nonempty (s : List Char) : Option String := if s.isEmpty then none else some (String.ofList s)

def afterSpan (d : Directive) : List Char → Option Directive
  | [] => some d
  | '=' :: level => (level? level).map fun level => { d with level }
  | _ => none

def span? (d : Directive) (s : List Char) : Option Directive :=
  let name := s.takeWhile fun c => c != ']' && c != '\x7b'
  match s.drop name.length with
  | ']' :: rest => afterSpan { d with span := some (String.ofList name) } rest
  | '\x7b' :: rest =>
    let fields := rest.takeWhile (· != '\x7d')
    match rest.drop fields.length with
    | '\x7d' :: ']' :: rest =>
      if fields.isEmpty then none
      else afterSpan { d with span := nonempty name, fields := [String.ofList fields] } rest
    | _ => none
  | _ => none

def startsTarget (c : Char) : Bool :=
  c.isAlphanum || c == '-' || c == ':' || c == '_' || 0x80 ≤ c.toNat

def ofText? (s : String) : Option Directive :=
  match (Text.trimBlank s).toList with
  | [] => none
  | '[' :: rest => span? {} rest
  | c :: cs =>
    if !startsTarget c then none
    else
      let name := (c :: cs).takeWhile fun c => c != '=' && c != '['
      let target := String.ofList name
      match (c :: cs).drop name.length with
      | '=' :: level => (level? level).map fun level => { target := some target, level }
      | '[' :: rest => span? { target := some target } rest
      | _ =>
        match Level.ofText? target with
        | some level => some { level }
        | none => some { target := some target }

def text (d : Directive) : String :=
  let fields :=
    if d.fields.isEmpty then "" else "\x7b" ++ ",".intercalate d.fields ++ "\x7d"
  let span :=
    if d.span.isSome || !d.fields.isEmpty then "[" ++ d.span.getD "" ++ fields ++ "]" else ""
  let about := d.target.getD "" ++ span
  (if d.target.isSome || !span.isEmpty then about ++ "=" else "") ++ d.level.text

def isStatic (d : Directive) : Bool := d.span.isNone && d.fields.isEmpty

def optionSize (s : Option String) : Nat := match s with | some s => s.utf8ByteSize + 1 | none => 0

/-- The more specific directive comes first. -/
def before (a b : Directive) : Bool :=
  let key (d : Directive) : Nat × Nat × Nat :=
    (optionSize d.target, (if d.span.isSome then 1 else 0), d.fields.length)
  let (a1, a2, a3) := key a
  let (b1, b2, b3) := key b
  if a1 != b1 then b1 < a1
  else if a2 != b2 then b2 < a2
  else if a3 != b3 then b3 < a3
  else if a.target != b.target then b.target.getD "" < a.target.getD ""
  else if a.span != b.span then b.span.getD "" < a.span.getD ""
  else decide (b.fields < a.fields)

def insert (d : Directive) : List Directive → List Directive
  | [] => [d]
  | e :: es =>
    if d.target = e.target ∧ d.span = e.span ∧ d.fields = e.fields then d :: es
    else if d.before e then d :: e :: es
    else e :: insert d es

end Directive

/-- Directives in the order in which they apply, those about spans last. -/
structure Filter where
  plain : List Directive := []
  spans : List Directive := []
deriving DecidableEq, Repr, Inhabited

namespace Filter

def add (f : Filter) (d : Directive) : Filter :=
  if d.isStatic then { f with plain := d.insert f.plain } else { f with spans := d.insert f.spans }

def ofText? (s : String) : Option Filter := do
  let parts := ((Text.pieces ',' s.toList).filter (· ≠ [])).map String.ofList
  let directives ← parts.mapM Directive.ofText?
  return directives.foldl add {}

/-- A text that is no filter stands for the usual level. -/
def ofText (s : String) : Filter := (ofText? s).getD { plain := [{ level := .info }] }

def text (f : Filter) : String := ",".intercalate ((f.plain ++ f.spans).map (·.text))

end Filter

end Gateway.Log
