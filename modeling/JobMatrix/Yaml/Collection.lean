import JobMatrix.Yaml.Node
import JobMatrix.Yaml.PlainScalar
import JobMatrix.Yaml.QuotedScalar
import JobMatrix.Yaml.BlockScalar

/-! # Collections

Block collections are told by their indentation: the entries of one collection
start at one column, and what belongs to an entry is indented further.  Flow
collections stand between brackets.  `floor` is always the least indentation
of a line that belongs to the node being read.  The rules are those of YAML 1.2
for block and flow collections, which the library `yaml` follows.
-/

namespace JobMatrix.Yaml

/-- What is said about a node before it: an anchor, and a tag. -/
structure Properties where
  anchor : Option String
  tag : Option String
  deriving Repr, DecidableEq

namespace Properties

def none : Properties := ⟨.none, .none⟩

def apply (p : Properties) (node : Node) : Node :=
  let tagged := match node, p.tag with
    | .scalar style _ text, some tag => .scalar style (some tag) text
    | node, _ => node
  match p.anchor with
  | some name => .anchored name tagged
  | .none => tagged

/-- Whether properties can stand before a node; an alias has none of its own. -/
def fits (p : Properties) : Node → Bool
  | .again _ => p = .none
  | _ => true

end Properties

def nameOf (l : Line) : Line :=
  l.takeWhile fun c => !isSpace c && !isFlowMark c

/-- Whether a line goes on with a bracket that closes a flow collection or a
    comma. -/
def endsFlowItem : Line → Bool
  | c :: _ => c = ',' || c = ']' || c = '\x7d'
  | [] => false

/-- Reads the properties on a line, each at most once, with blanks behind
    them. -/
def readProperties? : Nat → Properties → Cursor → Option (Properties × Cursor)
  | 0, _, _ => none
  | fuel + 1, p, c =>
      match c.line with
      | [] => some (p, c)
      | mark :: rest =>
          if mark = '&' || mark = '!' then do
            let name := nameOf rest
            let after := c.drop (name.length + 1)
            if !(startsBlank after.line || endsFlowItem after.line) then none
            let next := after.before (dropSpaces after.line)
            if mark = '&' then
              if name.isEmpty || p.anchor.isSome then none
              readProperties? fuel { p with anchor := some (String.ofList name) } next
            else
              if p.tag.isSome then none
              readProperties? fuel { p with tag := some (String.ofList ('!' :: name)) } next
          else some (p, c)

/-- An entry of a flow collection. -/
inductive FlowItem
  | single (node : Node)
  | pair (key value : Node)

/-- The node of an entry in a list; a pair is a map of its own. -/
def FlowItem.toNode : FlowItem → Node
  | single node => node
  | pair key value => .map [(key, value)]

/-- An entry in a map; a single key has the empty value. -/
def FlowItem.toEntry : FlowItem → Node × Node
  | single node => (node, .empty)
  | pair key value => (key, value)

/-- The next token of a flow collection.  Its line is indented by at least
    `floor`; the last bracket of an outermost collection may stand one column
    before. -/
def flowNext? (floor level : Nat) (c : Cursor) : Option Cursor :=
  match c.next? with
  | some (.here next _) => some next
  | some (.below next indent _) =>
      let closes := match next.line with
        | bracket :: _ => level = 1 && indent + 1 = floor && (bracket = ']' || bracket = '\x7d')
        | [] => false
      if floor ≤ indent || closes then some next else none
  | some .finished | none => none

/-- The rest of a line behind a colon that separates a key from its value. -/
def afterColon? (flow adjacent : Bool) : Line → Option Line
  | ':' :: rest => if adjacent || startsGap flow rest then some rest else none
  | _ => none

def afterKeyMark? (flow : Bool) : Line → Option Line
  | '?' :: rest => if startsGap flow rest then some rest else none
  | _ => none

def startsItem : Line → Bool
  | '-' :: rest => startsBlank rest
  | _ => false

/-- Whether a node is written with quotes or brackets, so that a colon may
    follow at once. -/
def isDelimited : Line → Bool
  | c :: _ => c = '"' || c = '\x27' || c = '[' || c = '\x7b'
  | [] => false

mutual

/-- Reads a scalar, an alias or a flow collection; `level` counts the flow
    collections around it. -/
def readAtom? : Nat → Nat → Nat → Cursor → Option (Node × Cursor)
  | 0, _, _, _ => none
  | fuel + 1, floor, level, c =>
      match c.line with
      | [] => none
      | '[' :: _ => do
          let (items, stop) ← readFlow? fuel floor (level + 1) false (c.drop 1)
          return (.list (items.map FlowItem.toNode), stop)
      | '\x7b' :: _ => do
          let (items, stop) ← readFlow? fuel floor (level + 1) true (c.drop 1)
          let node ← Node.uniqueMap? (items.map FlowItem.toEntry)
          return (node, stop)
      | '"' :: _ => do
          let (text, stop) ← readDouble? floor (c.drop 1)
          return (.scalar .quoted none (String.ofList text), stop)
      | '\x27' :: _ => do
          let (text, stop) ← readSingle? floor (c.drop 1)
          return (.scalar .quoted none (String.ofList text), stop)
      | '*' :: rest =>
          let name := nameOf rest
          if name.isEmpty then none
          else some (.again (String.ofList name), c.drop (name.length + 1))
      | _ => do
          let (text, stop) ← readPlain? (0 < level) floor c
          return (.scalar .plain none (String.ofList text), stop)

/-- Reads the entries of a flow collection up to its last bracket, at its start
    or behind a comma. -/
def readFlow? : Nat → Nat → Nat → Bool → Cursor → Option (List FlowItem × Cursor)
  | 0, _, _, _, _ => none
  | fuel + 1, floor, level, isMap, c => do
      let closing := if isMap then '\x7d' else ']'
      let c ← flowNext? floor level c
      if c.line.head? = some closing then return ([], c.drop 1)
      if endsFlowItem c.line then none
      let (item, stop) ← readFlowItem? fuel floor level isMap c
      let next ← flowNext? floor level stop
      match next.line with
      | ',' :: _ => do
          let (items, stop) ← readFlow? fuel floor level isMap (next.drop 1)
          return (item :: items, stop)
      | bracket :: _ => if bracket = closing then return ([item], next.drop 1) else none
      | [] => none

/-- Reads an entry of a flow collection.  In a list, a key without a mark of
    its own stands on one line with its colon. -/
def readFlowItem? : Nat → Nat → Nat → Bool → Cursor → Option (FlowItem × Cursor)
  | 0, _, _, _, _ => none
  | fuel + 1, floor, level, isMap, c => do
      let marked := afterKeyMark? true c.line
      let start ← match marked with
        | some rest => flowNext? floor level (c.before rest)
        | none => some c
      let (key, stop) ← readFlowNode? fuel floor level start
      let next ← flowNext? floor level stop
      match afterColon? true (isDelimited start.line) next.line with
      | some rest => do
          if !isMap && marked.isNone && start.breaksBefore next then none
          let value ← flowNext? floor level (next.before rest)
          if endsFlowItem value.line then return (.pair key .empty, value)
          let (node, stop) ← readFlowNode? fuel floor level value
          return (.pair key node, stop)
      | none => if marked.isSome then return (.pair key .empty, stop) else return (.single key, stop)

/-- Reads a node of a flow collection with its properties; it may be empty. -/
def readFlowNode? : Nat → Nat → Nat → Cursor → Option (Node × Cursor)
  | 0, _, _, _ => none
  | fuel + 1, floor, level, c => do
      let (p, after) ← readProperties? 3 .none c
      let next ← if p = .none then some after else flowNext? floor level after
      if endsFlowItem next.line || (afterColon? true false next.line).isSome then
        return (p.apply .empty, after)
      let (node, stop) ← readAtom? fuel floor level next
      if p.fits node then return (p.apply node, stop) else none

end

/-- Where a block node is read. -/
structure Site where
  /-- Whether a block collection may start on the line. -/
  inline : Bool
  /-- Whether a list may stand one column before the least indentation. -/
  beside : Bool
  deriving Repr, DecidableEq

/-- What follows an entry of a block collection at a column. -/
inductive Follow
  | over
  | entry (c : Cursor)

/-- What follows an entry of a block collection; only another line can, and one
    that is not indented further. -/
def follow? (column : Nat) (c : Cursor) : Option Follow :=
  match c.next? with
  | some .finished => some .over
  | some (.below next indent tab) =>
      if indent < column then some .over
      else if indent = column && !tab then some (.entry next)
      else none
  | some (.here ..) | none => none

/-- Whether a list starts at a line that would otherwise be indented too
    little. -/
def listBeside (floor : Nat) (site : Site) (indent : Nat) (c : Cursor) : Bool :=
  site.beside && indent + 1 = floor && startsItem c.line

mutual

/-- Reads what stands behind the mark of an entry, or at the start of a
    document; it may be empty. -/
def readBlock? : Nat → Nat → Site → Cursor → Option (Node × Cursor)
  | 0, _, _, _ => none
  | fuel + 1, floor, site, c =>
      match c.next? with
      | none => none
      | some .finished => some (.empty, c)
      | some (.here next tab) => readContent? fuel floor (site.inline && !tab) site.beside next
      | some (.below next indent tab) =>
          if listBeside floor site indent next && !tab then do
            let (items, stop) ← readItems? fuel indent next
            return (.list items, stop)
          else if indent < floor then some (.empty, c)
          else if tab && indent = 0 && !isDelimited next.line then none
          else readContent? fuel floor (!tab) site.beside next

/-- Reads a node whose first character is there; `inline` tells whether it may
    be a block collection.  Properties on the line of a key belong to the key,
    and those on a line before it to the collection. -/
def readContent? : Nat → Nat → Bool → Bool → Cursor → Option (Node × Cursor)
  | 0, _, _, _, _ => none
  | fuel + 1, floor, inline, beside, c => do
      let (p, after) ← readProperties? 3 .none c
      if p = .none then
        if startsItem c.line then
          if !inline then none
          let (items, stop) ← readItems? fuel c.column c
          return (.list items, stop)
        else readKeyed? fuel floor inline c.column .none c
      else match after.next? with
        | some (.here next _) =>
            if startsItem next.line then none else readKeyed? fuel floor inline c.column p next
        | _ => do
            let (node, stop) ← readBlock? fuel floor ⟨true, beside⟩ after
            if p.fits node then return (p.apply node, stop) else none

/-- Reads a scalar or flow collection, or the map of which it is the first key;
    `column` is where the key starts, with its properties. -/
def readKeyed? : Nat → Nat → Bool → Nat → Properties → Cursor → Option (Node × Cursor)
  | 0, _, _, _, _, _ => none
  | fuel + 1, floor, inline, column, p, c => do
      match c.line with
      | '|' :: _ => do
          let (text, stop) ← readBlockScalar? false floor (c.drop 1)
          return (p.apply (.scalar .quoted none (String.ofList text)), stop)
      | '>' :: _ => do
          let (text, stop) ← readBlockScalar? true floor (c.drop 1)
          return (p.apply (.scalar .quoted none (String.ofList text)), stop)
      | _ =>
          if (afterKeyMark? false c.line).isSome || (afterColon? false false c.line).isSome then
            if !inline then none
            let (entries, stop) ← readEntry? fuel column p c
            return (← Node.uniqueMap? entries, stop)
          else
            let (node, stop) ← readAtom? fuel floor 0 c
            if !p.fits node then none
            match afterColon? false false (dropSpaces stop.line) with
            | some rest => do
                if !inline || c.breaksBefore stop then none
                let (entries, stop) ← readValue? fuel column (p.apply node) (stop.before rest)
                return (← Node.uniqueMap? entries, stop)
            | none => return (p.apply node, stop)

/-- Reads the entries of a block map from one on, behind the properties of its
    key. -/
def readEntry? : Nat → Nat → Properties → Cursor → Option (List (Node × Node) × Cursor)
  | 0, _, _, _ => none
  | fuel + 1, column, p, c =>
      match afterKeyMark? false c.line with
      | some rest => do
          if p ≠ .none then none
          let (key, stop) ← readBlock? fuel (column + 1) ⟨true, true⟩ (c.before rest)
          match ← follow? column stop with
          | .over => return ([(key, .empty)], stop)
          | .entry next =>
              match afterColon? false false next.line with
              | some rest => do
                  let (value, stop) ← readBlock? fuel (column + 1) ⟨true, true⟩ (next.before rest)
                  readMore? fuel column (key, value) stop
              | none => do
                  let (entries, stop) ← readKey? fuel column next
                  return ((key, .empty) :: entries, stop)
      | none =>
          match afterColon? false false c.line with
          | some rest => readValue? fuel column (p.apply .empty) (c.before rest)
          | none => do
              let (key, stop) ← readAtom? fuel (column + 1) 0 c
              if c.breaksBefore stop || !p.fits key then none
              let rest ← afterColon? false false (dropSpaces stop.line)
              readValue? fuel column (p.apply key) (stop.before rest)

def readKey? : Nat → Nat → Cursor → Option (List (Node × Node) × Cursor)
  | 0, _, _ => none
  | fuel + 1, column, c => do
      let (p, next) ← readProperties? 3 .none c
      readEntry? fuel column p next

/-- Reads the entries of a block map behind the colon of one. -/
def readValue? : Nat → Nat → Node → Cursor → Option (List (Node × Node) × Cursor)
  | 0, _, _, _ => none
  | fuel + 1, column, key, c => do
      let (value, stop) ← readBlock? fuel (column + 1) ⟨false, true⟩ c
      readMore? fuel column (key, value) stop

/-- Reads the entries of a block map behind one that has been read. -/
def readMore? : Nat → Nat → Node × Node → Cursor → Option (List (Node × Node) × Cursor)
  | 0, _, _, _ => none
  | fuel + 1, column, entry, c => do
      match ← follow? column c with
      | .over => return ([entry], c)
      | .entry next => do
          let (entries, stop) ← readKey? fuel column next
          return (entry :: entries, stop)

def readItems? : Nat → Nat → Cursor → Option (List Node × Cursor)
  | 0, _, _ => none
  | fuel + 1, column, c => do
      let (item, stop) ← readBlock? fuel (column + 1) ⟨true, false⟩ (c.drop 1)
      match ← follow? column stop with
      | .over => return ([item], stop)
      | .entry next =>
          if startsItem next.line then do
            let (items, stop) ← readItems? fuel column next
            return (item :: items, stop)
          else return ([item], stop)

end

end JobMatrix.Yaml
