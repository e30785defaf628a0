import Negotiation.Toml.Scalar
import Negotiation.Toml.Tree

/-!
TOML documents: lines with a key and its value, headers of tables and of rows, comments. Arrays may
spread over lines, inline tables may not. Values nest, and dotted keys reach, fewer than eighty deep.
-/

namespace Negotiation.Toml

/-- The depth at which nesting is refused. -/
def depthLimit : Nat := 80

/-- The text behind blanks. -/
def skipBlanks (s : List Char) : List Char := s.dropWhile isBlank

/-- The text behind a comment, up to the end of its line. -/
def skipComment (s : List Char) : List Char :=
  match s with
  | '#' :: r => r.dropWhile isPlain
  | _ => s

/-- The text behind the rest of a line on which only a comment may stand. -/
def endLine (s : List Char) : Option (List Char) :=
  match skipComment (skipBlanks s) with
  | [] => some []
  | '\n' :: r => some r
  | '\r' :: '\n' :: r => some r
  | _ => none

/-- The text behind blanks, comments and ends of lines. A comment must end with its line. -/
def skipLines : Nat → List Char → List Char
  | 0, s => s
  | n + 1, s =>
    match skipSpace s with
    | '#' :: r =>
      match r.dropWhile isPlain with
      | '\n' :: r => skipLines n r
      | '\r' :: '\n' :: r => skipLines n r
      | _ => '#' :: r
    | s => s

/-- Whether a character may stand in a key without quotes. -/
def isBare (c : Char) : Bool := c.isAlphanum || c = '_' || c = '-'

/-- One part of a key. -/
def keyPart : Reader String := fun s =>
  match s with
  | '"' :: r => (basicTail r).map fun (t, r) => (String.ofList t, r)
  | '\'' :: r => (literalTail r).map fun (t, r) => (String.ofList t, r)
  | _ =>
    let t := s.takeWhile isBare
    if t.isEmpty then none else some (String.ofList t, s.dropWhile isBare)

/-- The parts of a dotted key, with blanks around each. The first argument bounds their number. -/
def keyParts : Nat → Reader (List String)
  | 0, _ => none
  | n + 1, s => do
    let (k, s) ← keyPart (skipBlanks s)
    match skipBlanks s with
    | '.' :: r => (keyParts n r).map fun (ks, r) => (k :: ks, r)
    | s => some ([k], s)

/-- A dotted key: its path and its last part. -/
def key : Reader (List String × String) := fun s => do
  let (parts, s) ← keyParts (depthLimit - 1) s
  some ((parts.dropLast, ← parts.getLast?), s)

/-- The text behind a word. -/
def word (w : String) (s : List Char) : Option (List Char) :=
  if w.toList.isPrefixOf s then some (s.drop w.length) else none

mutual

/-- A value. The bound exceeds twice the length of the text; `depth` more levels may be opened. -/
def value : Nat → Nat → Reader Json
  | 0, _, _ => none
  | n + 1, depth, s =>
    match s with
    | '"' :: _ => (text s).map fun (t, r) => (.str t, r)
    | '\'' :: _ => (text s).map fun (t, r) => (.str t, r)
    | '[' :: r => if depth ≤ 1 then none else (items n (depth - 1) r).map fun (xs, r) => (.arr xs, r)
    | '{' :: r =>
      if depth ≤ 1 then none
      else
        match skipBlanks r with
        | '}' :: r => some (.obj [], r)
        | r => (pairs n (depth - 1) [] r).map fun (e, r) => (.obj (membersOf e), r)
    | 't' :: _ => (word "true" s).map fun r => (.bool true, r)
    | 'f' :: _ => (word "false" s).map fun r => (.bool false, r)
    | _ => number s

/-- The rest of an array: values with commas between them, and perhaps one behind the last. -/
def items : Nat → Nat → Reader (List Json)
  | 0, _, _ => none
  | n + 1, depth, s =>
    match skipLines s.length s with
    | ']' :: r => some ([], r)
    | s => do
      let (x, s) ← value n depth s
      match skipLines s.length s with
      | ',' :: r => (items n depth r).map fun (xs, r) => (x :: xs, r)
      | ']' :: r => some ([x], r)
      | _ => none

/-- The rest of an inline table that is not empty. -/
def pairs : Nat → Nat → Entries → Reader Entries
  | 0, _, _, _ => none
  | n + 1, depth, e, s => do
    let ((path, last), s) ← key s
    let s ← expect '=' s
    let (v, s) ← value n depth (skipBlanks s)
    let e ← Entries.assign v true path last e
    match skipBlanks s with
    | ',' :: r => pairs n depth e r
    | '}' :: r => some (e, r)
    | _ => none

end

/-- A document as far as it is read: its tables, and the path of the table that is open. -/
structure Draft where
  root : Entries := []
  path : List String := []

/-- A header of a table or, with `row`, of a row, behind its opening brackets. -/
def header (row : Bool) (d : Draft) (s : List Char) : Option (Draft × List Char) := do
  let ((path, last), s) ← key s
  let s ← expect ']' s
  let s ← if row then expect ']' s else some s
  let root ← Entries.within (if row then Entries.openRow last else Entries.openTable last) path d.root
  some (⟨root, path ++ [last]⟩, ← endLine s)

/-- A key and its value. -/
def assignment (d : Draft) (s : List Char) : Option (Draft × List Char) := do
  let ((path, last), s) ← key s
  let s := skipBlanks (← expect '=' s)
  let (v, s) ← value (2 * s.length + 2) depthLimit s
  let root ← Entries.within (Entries.assign v true path last) d.path d.root
  some ({ d with root }, ← endLine s)

/-- One line, behind the blanks at its start. -/
def line (d : Draft) (s : List Char) : Option (Draft × List Char) :=
  match s with
  | '[' :: '[' :: r => header true d r
  | '[' :: r => header false d r
  | '#' :: _ => (endLine s).map (d, ·)
  | '\n' :: r => some (d, r)
  | '\r' :: '\n' :: r => some (d, r)
  | _ => assignment d s

/-- The lines of a document; the bound exceeds their number. -/
def lines : Nat → Draft → List Char → Option Draft
  | 0, _, _ => none
  | n + 1, d, s =>
    match skipBlanks s with
    | [] => some d
    | s => do
      let (d, s) ← line d s
      lines n d s

/-- Reads a document, which may start with a byte order mark. -/
def parse? (document : String) : Option Json :=
  let s := match document.toList with
    | '\uFEFF' :: r => r
    | s => s
  (lines (s.length + 1) {} s).map fun d => .obj (membersOf d.root)

end Negotiation.Toml
