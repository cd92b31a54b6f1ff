import RuleBroker.Binary64.Text
import RuleBroker.Value.Canonical
import RuleBroker.Yaml.Text
/-! Reading a YAML document: blocks by their indentation, and lists and tables in brackets
and braces. The answer is the value of the one document of a text, or nothing if the
text is at fault. -/
namespace RuleBroker.Yaml

structure Properties where
  anchor : Option String := none
  tag : Option (List Char) := none

namespace Document

def isNameEnd (c : Char) : Bool := isGap c || c = '\n' || isFlowMark c

def readName (c : Cursor) : Option (String × Cursor) :=
  let name := (c.rest.drop 1).takeWhile fun d => !isNameEnd d
  if name.isEmpty then none
  else some (String.ofList name, c.forward (name.length + 1))

def skipGaps (c : Cursor) : Cursor := c.upTo (c.rest.dropWhile isGap)

def readProperties : (fuel : Nat) → Properties → Cursor → Option (Properties × Cursor)
  | 0, p, c => some (p, c)
  | fuel + 1, p, c =>
    match c.rest with
    | '&' :: _ =>
      (readName c).bind fun (name, c) =>
        readProperties fuel { p with anchor := some name } (skipGaps c)
    | '!' :: _ =>
      let tag := c.rest.takeWhile fun d => !isNameEnd d
      readProperties fuel { p with tag := some tag } (skipGaps (c.forward tag.length))
    | _ => some (p, c)

def properties (c : Cursor) : Option (Properties × Cursor) := readProperties 2 {} c

def named (p : Properties) (v : Value) (c : Cursor) : Value × Cursor :=
  match p.anchor with
  | some name => (v, { c with named := (name, v) :: c.named })
  | none => (v, c)

def readAlias (c : Cursor) : Option (Value × Cursor) := do
  let (name, d) ← readName c
  some (← c.named.lookup name, d)

def keyText : Value → Option String
  | .text s => some s
  | .int n => some (String.ofList (Text.integer n))
  | .bool b => some (if b then "true" else "false")
  | .float x => some (String.ofList x.plainText)
  | _ => none

/-- A scalar; the text of a plain one ends with its line if it is to be a key. -/
def readScalar (inFlow isKey : Bool) (outer : Int) (c : Cursor) : Option (Scalar × Cursor) :=
  match c.rest with
  | d :: rest =>
    if d = '"' ∨ d = '\'' then
      (Quoted.read? c.rest).map fun (text, rest) => (.quoted text, c.upTo rest)
    else if (d = '|' ∨ d = '>') ∧ !inFlow ∧ !isKey then
      (Block.read (d = '>') outer rest).map fun (text, rest) => (.quoted text, c.upTo rest)
    else if !Plain.starts inFlow c.rest then none
    else
      let (text, rest) := if isKey then Plain.readLine inFlow false c.rest
        else Plain.read inFlow (outer + 1) c.rest
      some (.plain text, c.upTo rest)
  | [] => none

def readKeyText (inFlow : Bool) (c : Cursor) : Option (String × Cursor) := do
  let (p, d) ← properties c
  let (name, e) ← match d.rest with
    | '*' :: _ => (readAlias d).bind fun (v, e) => (keyText v).map (·, e)
    | _ => (readScalar inFlow true 0 d).bind fun (s, e) => s.keyText.map (·, e)
  some (name, (named p (.text name) e).2)

def readKey (c : Cursor) : Option (String × Cursor) :=
  (readKeyText false c).bind fun (name, d) =>
    let e := skipGaps d
    if d.line = c.line ∧ e.atSign ':' then some (name, e.next) else none

/-- The sign behind a key in brackets or braces: with a blank or a mark behind it, or right
behind the key. -/
def behindFlowKey? (outer : Int) (c : Cursor) : Option Cursor :=
  let d := c.skip outer
  match d.rest with
  | ':' :: rest =>
    if startsBlank rest ∨ startsFlowMark rest ∨ c.rest.head? = some ':' then some d.next else none
  | _ => none

def flowPlace (outer : Int) (c : Cursor) : Option Cursor :=
  let d := c.skip outer
  if d.fresh ∧ (d.column : Int) < outer then none else some d

def put (name : String) (v : Value) (fields : List (String × Value)) :
    Option (List (String × Value)) :=
  if (Fields.find name fields).isSome then none else some (Fields.put name v fields)

mutual

def flowValue : (fuel : Nat) → (outer : Int) → Cursor → Option (Value × Cursor)
  | 0, _, _ => none
  | fuel + 1, outer, c =>
    match properties c with
    | none => none
    | some (p, d) =>
      match flowPlace outer d with
      | none => none
      | some d =>
        if d.rest.head?.any fun e => e = ',' || e = ']' || e = '\x7d' then
          some (named p .null d)
        else (atom fuel true outer p d).map fun (v, e) => named p v e

def atom : (fuel : Nat) → (inFlow : Bool) → (outer : Int) → Properties → Cursor →
    Option (Value × Cursor)
  | 0, _, _, _, _ => none
  | fuel + 1, inFlow, outer, p, c =>
    match c.rest with
    | '*' :: _ => readAlias c
    | '[' :: _ => (flowItems fuel outer c.next).map fun (vs, d) => (.list vs, d)
    | '\x7b' :: _ => (flowPairs fuel outer [] c.next).map fun (fs, d) => (.object fs, d)
    | _ =>
      match readScalar inFlow false outer c with
      | none => none
      | some (s, d) => (s.value p.tag).map (·, d)

def flowBehindKey : (fuel : Nat) → (outer : Int) → Cursor → Option (Value × Cursor)
  | 0, _, _ => none
  | fuel + 1, outer, c =>
    match flowPlace outer c with
    | none => none
    | some d => flowValue fuel outer d

def flowItems : (fuel : Nat) → (outer : Int) → Cursor → Option (List Value × Cursor)
  | 0, _, _ => none
  | fuel + 1, outer, c =>
    match flowPlace outer c with
    | none => none
    | some c =>
      if c.rest.head? = some ']' then some ([], c.next)
      else if c.rest.head? = some ',' then none
      else
        let key := (readKeyText true c).bind fun (name, d) =>
          if d.line = c.line then (behindFlowKey? outer d).map (name, ·) else none
        let item := match key with
          | some (name, d) =>
            (flowBehindKey fuel outer d).map fun (v, e) => (.object [(name, v)], e)
          | none => flowValue fuel outer c
        match item with
        | none => none
        | some (v, d) =>
          match flowPlace outer d with
          | none => none
          | some e =>
            if e.rest.head? = some ']' then some ([v], e.next)
            else if e.rest.head? = some ',' then
              (flowItems fuel outer e.next).map fun (vs, f) => (v :: vs, f)
            else none

def flowPairs : (fuel : Nat) → (outer : Int) → List (String × Value) → Cursor →
    Option (List (String × Value) × Cursor)
  | 0, _, _, _ => none
  | fuel + 1, outer, held, c =>
    match flowPlace outer c with
    | none => none
    | some c =>
      if c.rest.head? = some '\x7d' then some (held, c.next)
      else match readKeyText true c with
        | none => none
        | some (name, d) =>
          let pair := match behindFlowKey? outer d with
            | some e => flowBehindKey fuel outer e
            | none => some (.null, d)
          match pair with
          | none => none
          | some (v, e) =>
            match put name v held, flowPlace outer e with
            | some held, some f =>
              if f.rest.head? = some '\x7d' then some (held, f.next)
              else if f.rest.head? = some ',' then flowPairs fuel outer held f.next
              else none
            | _, _ => none

end

mutual

def node : (fuel : Nat) → (outer : Int) → Cursor → Option (Value × Cursor)
  | 0, _, _ => none
  | fuel + 1, outer, c =>
    if c.atSign '-' then (items fuel c.column c).map fun (vs, d) => (.list vs, d)
    else if c.atSign '?' ∨ (readKey c).isSome then
      (pairs fuel c.column [] c).map fun (fs, d) => (.object fs, d)
    else inline fuel false outer c

def inline : (fuel : Nat) → (behindKey : Bool) → (outer : Int) → Cursor →
    Option (Value × Cursor)
  | 0, _, _, _ => none
  | fuel + 1, behindKey, outer, c =>
    match properties c with
    | none => none
    | some (p, d) =>
      let e := d.skip outer
      let value :=
        if d.line = e.line ∧ !e.rest.isEmpty then atom fuel false outer p d
        else below fuel behindKey outer d
      value.map fun (v, f) => named p v f

/-- The value on the lines below: within the block, or behind a key also a list in its
column. Without either it is null. -/
def below : (fuel : Nat) → (behindKey : Bool) → (outer : Int) → Cursor →
    Option (Value × Cursor)
  | 0, _, _, _ => none
  | fuel + 1, behindKey, outer, c =>
    let d := c.skip outer
    if d.isWithin outer then node fuel outer d
    else if behindKey ∧ !d.atEnd ∧ (d.column : Int) = outer ∧ d.atSign '-' then
      (items fuel d.column d).map fun (vs, e) => (.list vs, e)
    else some (.null, d)

def keyed : (fuel : Nat) → (outer : Int) → Cursor → Option (Value × Cursor)
  | 0, _, _ => none
  | fuel + 1, outer, c =>
    let d := c.skip outer
    if d.line = c.line ∧ !d.rest.isEmpty then inline fuel true outer d else below fuel true outer c

def signed : (fuel : Nat) → (outer : Nat) → Cursor → Option (Value × Cursor)
  | 0, _, _ => none
  | fuel + 1, outer, c =>
    let d := c.skip outer
    if (d.line = c.line ∧ !d.rest.isEmpty) ∨ d.isWithin outer then node fuel outer d
    else some (.null, d)

def items : (fuel : Nat) → (column : Nat) → Cursor → Option (List Value × Cursor)
  | 0, _, _ => none
  | fuel + 1, column, c =>
    match signed fuel column c.next with
    | none => none
    | some (v, d) =>
      let e := d.skip column
      if e.atEnd ∨ (e.fresh ∧ (e.column < column ∨ (e.column = column ∧ !e.atSign '-'))) then
        some ([v], e)
      else if e.fresh ∧ e.column = column then
        (items fuel column e).map fun (vs, f) => (v :: vs, f)
      else none

def pair : (fuel : Nat) → (column : Nat) → Cursor → Option (String × Value × Cursor)
  | 0, _, _ => none
  | fuel + 1, column, c =>
    if c.atSign '?' then
      match signed fuel column c.next with
      | none => none
      | some (k, d) =>
        let e := d.skip column
        match keyText k with
        | none => none
        | some name =>
          if e.column = column ∧ e.atSign ':' then
            (signed fuel column e.next).map (name, ·)
          else some (name, .null, e)
    else match readKey c with
      | none => none
      | some (name, d) => (keyed fuel column d).map (name, ·)

def pairs : (fuel : Nat) → (column : Nat) → List (String × Value) → Cursor →
    Option (List (String × Value) × Cursor)
  | 0, _, _, _ => none
  | fuel + 1, column, held, c =>
    match pair fuel column c with
    | none => none
    | some (name, v, d) =>
      let e := d.skip column
      match put name v held with
      | none => none
      | some held =>
        if e.atEnd ∨ (e.fresh ∧ e.column < column) then some (held, e)
        else if e.fresh ∧ e.column = column then pairs fuel column held e
        else none

end

def behindDirectives : (fuel : Nat) → (any : Bool) → Cursor → Bool × Cursor
  | 0, any, c => (any, c)
  | fuel + 1, any, c =>
    let d := c.skip (-1)
    if d.column = 0 ∧ d.rest.head? = some '%' then
      behindDirectives fuel true (d.upTo (d.rest.dropWhile (· ≠ '\n')))
    else (any, d)

def isDone (c : Cursor) : Bool :=
  let d := c.skip (-1)
  d.rest.isEmpty || (d.atMark '.' && ((d.forward 3).skip (-1)).rest.isEmpty)

def readOnly (fuel : Nat) (c : Cursor) : Option Value :=
  let (any, d) := behindDirectives fuel false c
  let value :=
    if d.atMark '-' then keyed fuel (-1) (d.forward 3)
    else if any then none
    else if d.rest.isEmpty then some (.object [], d)
    else node fuel (-1) d
  value.bind fun (v, e) => if isDone e then some v else none

end Document

def withBreaks : List Char → List Char
  | '\r' :: '\n' :: cs => '\n' :: withBreaks cs
  | '\r' :: cs => '\n' :: withBreaks cs
  | c :: cs => c :: withBreaks cs
  | [] => []

def read (s : String) : Option Value :=
  (Document.readOnly (8 * s.length + 16) { rest := withBreaks s.toList }).map Value.canonical

end RuleBroker.Yaml
