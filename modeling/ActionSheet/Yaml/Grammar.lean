import ActionSheet.Yaml.Layout
import ActionSheet.Yaml.Node

/-!
# From tokens to documents

The grammar of nodes. A node may have an anchor and a tag in front of it; when nothing follows them,
or where nothing is written at all, an empty plain scalar stands. A block sequence that is the value
of a key need not be indented further than the key. An entry of a flow sequence may be a single pair
of key and value.

Every function is given tokens and hands back those behind what it read. A text holds one document;
the document may be bare, or have directives and a mark in front of it.
-/

namespace ActionSheet.Yaml

/-- What is at hand while a document is read: what the handles of its tags stand for. -/
abbrev Handles := List (String × String)

/-- The tag of a handle and a suffix. -/
def resolveTag (handles : Handles) (handle suffix : String) : Option String :=
  if handle.isEmpty then some suffix
  else (handles.lookup handle).map (· ++ suffix)

/-- What is said in front of a node. -/
structure Properties where
  anchor : Option String := none
  tag : Option String := none

/-- Whether nothing is said. -/
def Properties.isEmpty (p : Properties) : Bool := p.anchor.isNone && p.tag.isNone

/-- The properties in front of a node, in either order, and the tokens behind them. -/
def properties (handles : Handles) : List Token → Option (Properties × List Token)
  | .anchor a :: .tag h s :: ts =>
    (resolveTag handles h s).map fun t => (⟨some a, some t⟩, ts)
  | .anchor a :: ts => some (⟨some a, none⟩, ts)
  | .tag h s :: .anchor a :: ts =>
    (resolveTag handles h s).map fun t => (⟨some a, some t⟩, ts)
  | .tag h s :: ts => (resolveTag handles h s).map fun t => (⟨none, some t⟩, ts)
  | ts => some ({}, ts)

/-- Where a node is read. -/
inductive Context where
  /-- Inside a flow collection. -/
  | flow
  /-- An entry of a block sequence, or a document. -/
  | block
  /-- A key or value of a block mapping, where a sequence may stand without indentation. -/
  | pair
  deriving DecidableEq

/-- A node, or the empty scalar, with the anchors after it and the tokens behind it. -/
abbrev NodeResult := Option (Node × Anchors × List Token)

/-- Items and what is behind them. -/
abbrev ItemsResult := Option (List Node × Anchors × List Token)

/-- Entries and what is behind them. -/
abbrev EntriesResult := Option (List (Node × Node) × Anchors × List Token)

/-- Whether a token is one of those that leave the place in front of them empty. -/
def leavesEmpty (stops : List Token) : List Token → Bool
  | [] => false
  | t :: _ => stops.contains t

/-- The tokens behind an entry of a single pair whose key is left out. The token that shows the key
to be missing is passed over with it. -/
def behindMissingKey (ts : List Token) : List Token := ts.drop 1

mutual

/-- A node. -/
def node (handles : Handles) (fuel : Nat) (context : Context) (a : Anchors) (ts : List Token) :
    NodeResult :=
  match fuel with
  | 0 => none
  | fuel + 1 =>
    match ts with
    | .alias name :: rest => (a.number? name).map fun i => (.alias i, a, rest)
    | _ => do
      let (p, rest) ← properties handles ts
      match p.anchor with
      | none => content handles fuel context p a rest
      | some name =>
        let (n, b, rest) ← content handles fuel context p (a.declare name) rest
        return (n, b.complete a.declared n, rest)

/-- A node without its properties. -/
def content (handles : Handles) (fuel : Nat) (context : Context) (p : Properties) (a : Anchors)
    (ts : List Token) : NodeResult :=
  match fuel with
  | 0 => none
  | fuel + 1 =>
    match ts with
    | .blockEntry :: _ =>
      if context = .pair then do
        let (items, a, rest) ← bareItems handles fuel a ts
        return (.sequence items, a, rest)
      else if p.isEmpty then none
      else some (.scalar (Scalar.empty p.tag), a, ts)
    | .scalar text style :: rest => some (.scalar ⟨p.tag, style, text⟩, a, rest)
    | .flowSequence :: rest => do
      let (items, a, rest) ← flowItems handles fuel true a rest
      return (.sequence items, a, rest)
    | .flowMapping :: rest => do
      let (entries, a, rest) ← flowEntries handles fuel true a rest
      return (.mapping entries, a, rest)
    | .blockSequence :: rest =>
      if context = .flow then
        if p.isEmpty then none else some (.scalar (Scalar.empty p.tag), a, ts)
      else do
        let (items, a, rest) ← blockItems handles fuel a rest
        return (.sequence items, a, rest)
    | .blockMapping :: rest =>
      if context = .flow then
        if p.isEmpty then none else some (.scalar (Scalar.empty p.tag), a, ts)
      else do
        let (entries, a, rest) ← blockEntries handles fuel a rest
        return (.mapping entries, a, rest)
    | _ => if p.isEmpty then none else some (.scalar (Scalar.empty p.tag), a, ts)

/-- A node, or the empty scalar in front of certain tokens. -/
def nodeUnless (handles : Handles) (fuel : Nat) (context : Context) (stops : List Token)
    (a : Anchors) (ts : List Token) : NodeResult :=
  match fuel with
  | 0 => none
  | fuel + 1 =>
    if leavesEmpty stops ts then some (.empty, a, ts) else node handles fuel context a ts

/-- The items of a block sequence, up to its end. -/
def blockItems (handles : Handles) (fuel : Nat) (a : Anchors) (ts : List Token) : ItemsResult :=
  match fuel with
  | 0 => none
  | fuel + 1 =>
    match ts with
    | .blockEntry :: rest => do
      let (n, a, rest) ← nodeUnless handles fuel .block [.blockEntry, .blockEnd] a rest
      let (ns, a, rest) ← blockItems handles fuel a rest
      return (n :: ns, a, rest)
    | .blockEnd :: rest => some ([], a, rest)
    | _ => none

/-- The items of a block sequence without indentation of its own; anything but an entry ends
it. -/
def bareItems (handles : Handles) (fuel : Nat) (a : Anchors) (ts : List Token) : ItemsResult :=
  match fuel with
  | 0 => none
  | fuel + 1 =>
    match ts with
    | .blockEntry :: rest => do
      let (n, a, rest) ←
        nodeUnless handles fuel .block [.blockEntry, .key, .value, .blockEnd] a rest
      let (ns, a, rest) ← bareItems handles fuel a rest
      return (n :: ns, a, rest)
    | _ => some ([], a, ts)

/-- The entries of a block mapping, up to its end. -/
def blockEntries (handles : Handles) (fuel : Nat) (a : Anchors) (ts : List Token) :
    EntriesResult :=
  match fuel with
  | 0 => none
  | fuel + 1 =>
    match ts with
    | .key :: rest => do
      let stops := [Token.key, .value, .blockEnd]
      let (k, a, rest) ← nodeUnless handles fuel .pair stops a rest
      let (v, a, rest) ← match rest with
        | .value :: rest => nodeUnless handles fuel .pair stops a rest
        | _ => some (.empty, a, rest)
      let (es, a, rest) ← blockEntries handles fuel a rest
      return ((k, v) :: es, a, rest)
    | .blockEnd :: rest => some ([], a, rest)
    | _ => none

/-- The items of a flow sequence, up to its end; each but the first has a comma in front of it. -/
def flowItems (handles : Handles) (fuel : Nat) (first : Bool) (a : Anchors) (ts : List Token) :
    ItemsResult :=
  match fuel with
  | 0 => none
  | fuel + 1 =>
    match ts with
    | .flowSequenceEnd :: rest => some ([], a, rest)
    | _ => do
      let ts ← if first then some ts else match ts with
        | .flowEntry :: rest => some rest
        | _ => none
      match ts with
      | .flowSequenceEnd :: rest => return ([], a, rest)
      | .key :: rest =>
        let (n, a, rest) ← singlePair handles fuel a rest
        let (ns, a, rest) ← flowItems handles fuel false a rest
        return (n :: ns, a, rest)
      | _ =>
        let (n, a, rest) ← node handles fuel .flow a ts
        let (ns, a, rest) ← flowItems handles fuel false a rest
        return (n :: ns, a, rest)

/-- An entry of a flow sequence that is a pair of key and value, from behind the mark of the
key. -/
def singlePair (handles : Handles) (fuel : Nat) (a : Anchors) (ts : List Token) : NodeResult :=
  match fuel with
  | 0 => none
  | fuel + 1 => do
    let (k, a, rest) ←
      if leavesEmpty [.value, .flowEntry, .flowSequenceEnd] ts then
        some (Node.empty, a, behindMissingKey ts)
      else node handles fuel .flow a ts
    let (v, a, rest) ← match rest with
      | .value :: rest => nodeUnless handles fuel .flow [.flowEntry, .flowSequenceEnd] a rest
      | _ => some (.empty, a, rest)
    return (.mapping [(k, v)], a, rest)

/-- The entries of a flow mapping, up to its end; each but the first has a comma in front of it. A
node without the mark of a key is a key without value. -/
def flowEntries (handles : Handles) (fuel : Nat) (first : Bool) (a : Anchors) (ts : List Token) :
    EntriesResult :=
  match fuel with
  | 0 => none
  | fuel + 1 =>
    match ts with
    | .flowMappingEnd :: rest => some ([], a, rest)
    | _ => do
      let ts ← if first then some ts else match ts with
        | .flowEntry :: rest => some rest
        | _ => none
      match ts with
      | .flowMappingEnd :: rest => return ([], a, rest)
      | .key :: rest =>
        let (k, a, rest) ←
          nodeUnless handles fuel .flow [.value, .flowEntry, .flowMappingEnd] a rest
        let (v, a, rest) ← match rest with
          | .value :: rest => nodeUnless handles fuel .flow [.flowEntry, .flowMappingEnd] a rest
          | _ => some (.empty, a, rest)
        let (es, a, rest) ← flowEntries handles fuel false a rest
        return ((k, v) :: es, a, rest)
      | _ =>
        let (k, a, rest) ← node handles fuel .flow a ts
        let (es, a, rest) ← flowEntries handles fuel false a rest
        return ((k, .empty) :: es, a, rest)

end

/-! ## Documents -/

/-- What the handles of a document stand for that declares none. -/
def standardHandles : Handles := [("!", "!"), ("!!", "tag:yaml.org,2002:")]

/-- What is declared in front of a document: whether its version was given, and its handles. -/
structure Prologue where
  versioned : Bool := false
  handles : Handles := []

/-- The directives in front of a document, and the tokens behind them. A directive must not come
twice for one thing, and the version must be one that is known. -/
def prologue (p : Prologue) : List Token → Option (Prologue × List Token)
  | .version major minor :: ts =>
    if p.versioned || major != 1 || (minor != 1 && minor != 2) then none
    else prologue { p with versioned := true } ts
  | .tagHandle handle beginning :: ts =>
    if (p.handles.lookup handle).isSome then none
    else prologue { p with handles := (handle, beginning) :: p.handles } ts
  | ts => some (p, ts)

/-- A node that is all that is left of the tokens, but for marks of a document's end. -/
def soleNode (handles : Handles) (ts : List Token) : Option Document := do
  let (root, a, rest) ← node handles (4 * ts.length + 4) .block {} ts
  if rest.all (· == .documentEnd) then return ⟨root, a.named⟩ else none

/-- The document behind the mark at its start. -/
def markedDocument (handles : Handles) (ts : List Token) : Option Document :=
  if ts.all (· == .documentEnd) then some ⟨.empty, []⟩ else soleNode handles ts

/-- The one document that tokens spell. -/
def Document.ofTokens? (ts : List Token) : Option Document :=
  match ts with
  | [] => some ⟨.empty, []⟩
  | .version .. :: _ | .tagHandle .. :: _ | .documentStart :: _ => do
    let (p, rest) ← prologue {} ts
    match rest with
    | .documentStart :: rest => markedDocument (p.handles ++ standardHandles) rest
    | _ => none
  | _ => soleNode standardHandles ts

/-- The one document that a text spells. -/
def Document.parse? (s : String) : Option Document :=
  (tokens? s).bind Document.ofTokens?

end ActionSheet.Yaml
