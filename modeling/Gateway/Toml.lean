import Gateway.Toml.Value

/-! Configuration files: headers that open tables, and pairs that belong to the table opened
last. -/

namespace Gateway.Toml

structure Document where
  root : Entries := []
  /-- The keys of the table that is open. -/
  current : List String := []

/-- One line's content: a header of a table, a header of an array of tables, or a pair. -/
inductive Statement where
  | table (keys : List String)
  | item (keys : List String)
  | pair (keys : List String) (value : Json)

def Document.apply (d : Document) : Statement → Option Document
  | .table keys => do
    let last ← keys.getLast?
    let root ← Entries.descend (Entries.openTable last) keys.dropLast d.root
    return { root, current := keys }
  | .item keys => do
    let last ← keys.getLast?
    let root ← Entries.descend (Entries.openItem last) keys.dropLast d.root
    return { root, current := keys }
  | .pair keys value => do
    let root ← Entries.descend (Entries.set (.leaf value) keys) d.current d.root
    return { d with root }

def header? (closing : List Char) (s : List Char) : Option (List String × List Char) := do
  let (keys, rest) ← dottedKey? maxDepth s
  let rest ← Text.dropStart? closing rest
  return (keys, rest)

def statement? (s : List Char) : Option (Statement × List Char) :=
  match s with
  | '[' :: '[' :: rest => (header? [']', ']'] rest).map fun (keys, rest) => (.item keys, rest)
  | '[' :: rest => (header? [']'] rest).map fun (keys, rest) => (.table keys, rest)
  | _ => do
    let (keys, rest) ← dottedKey? maxDepth s
    match rest with
    | '=' :: rest =>
      let rest := skipBlank rest
      let (v, rest) ← value? (rest.length + 1) maxDepth rest
      return (.pair keys v, rest)
    | _ => none

/-- Reads statements, one a line; `fuel` bounds their number. -/
def statements? : (fuel : Nat) → List Char → Document → Option Document
  | 0, _, _ => none
  | fuel + 1, s, d => do
    match ← skipLines (s.length + 1) s with
    | [] => return d
    | s =>
      let (st, rest) ← statement? s
      let d ← d.apply st
      match ← skipComment (skipBlank rest) with
      | [] => return d
      | rest => statements? fuel (← newline? rest) d

def parse? (text : String) : Option Json :=
  let s := match text.toList with
    | '\uFEFF' :: rest => rest
    | s => s
  (statements? (s.length + 1) s {}).map fun d => (Node.table false false d.root).toJson

end Gateway.Toml
