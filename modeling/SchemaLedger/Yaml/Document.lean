import SchemaLedger.Yaml.Token
/-!
# Flat documents

A document is read as far as a flat mapping of scalars needs it. Its root is a
scalar, or a collection of which only the entries of a mapping are looked at,
and of these only whether they are scalars, aliases or collections again.
Reading stops at the first fault and behind the first nested collection, and
says how it came to stop: whoever uses the nodes up to there may find a reason
of his own to refuse the document.
-/

namespace SchemaLedger.Yaml

inductive Node where
  | scalar (s : Scalar) (tag : Option String)
  | sequence
  | mapping
  | aliasOf (name : String)
  deriving DecidableEq, Repr

structure Placed where
  node : Node
  anchor : Option String
  mark : Mark
  deriving DecidableEq, Repr

inductive Ending where
  /-- At the end, and nothing but the end follows. -/
  | complete
  /-- At the end of the document, and more follows. -/
  | surplus
  /-- At a fault. -/
  | malformed
  /-- Behind the beginning of a nested collection. -/
  | nested
  deriving DecidableEq, Repr

/-- A document: its root, if there is any, the keys and values of a mapping in
the order in which they are written, and how reading came to stop. -/
structure Document where
  root : Option Placed
  entries : List Placed := []
  ending : Ending
  deriving DecidableEq, Repr

abbrev Handles := List (String × String)

def Handles.standard : Handles :=
  [("!", "!"), ("!!", "tag:yaml.org,2002:")]

def Tag.resolve? (t : Tag) (handles : Handles) : Option String :=
  if t.handle = "" then some t.suffix
  else (handles.lookup t.handle).map (· ++ t.suffix)

def Placed.empty (mark : Mark) : Placed :=
  ⟨.scalar ⟨"", .plain⟩ none, none, mark⟩

def readProperties (tokens : List Token) :
    Option String × Option Tag × List Token :=
  match tokens with
  | ⟨.anchor name, _, _⟩ :: ⟨.tag t, _, _⟩ :: rest => (some name, some t, rest)
  | ⟨.tag t, _, _⟩ :: ⟨.anchor name, _, _⟩ :: rest => (some name, some t, rest)
  | ⟨.anchor name, _, _⟩ :: rest => (some name, none, rest)
  | ⟨.tag t, _, _⟩ :: rest => (none, some t, rest)
  | rest => (none, none, rest)

/-- Which collections may stand in a place: in flow collections no block
collections, and as a key or value of a block mapping also a sequence without
an indentation of its own. -/
inductive Context where
  | flow
  | block
  | entry
  deriving DecidableEq, Repr

def collectionAt? (context : Context) : TokenKind → Option Node
  | .flowSequenceStart => some .sequence
  | .flowMappingStart => some .mapping
  | .blockSequenceStart => if context = .flow then none else some .sequence
  | .blockMappingStart => if context = .flow then none else some .mapping
  | .blockEntry => if context = .entry then some .sequence else none
  | _ => none

/-- The node in front. What a collection holds is left standing. The tag `!`
says nothing. -/
def readNode (handles : Handles) (context : Context) (tokens : List Token) :
    Option (Placed × List Token) := do
  let first ← tokens.head?
  match first.kind with
  | .aliasOf name => some (⟨.aliasOf name, none, first.start⟩, tokens.drop 1)
  | _ =>
    let (anchor, written, rest) := readProperties tokens
    let next ← rest.head?
    let tag ←
      match written with
      | none => some none
      | some t => (t.resolve? handles).map some
    let mark := first.start
    match next.kind with
    | .scalar s =>
      let tag := tag.filter (· != "!")
      some (⟨.scalar s tag, anchor, mark⟩, rest.drop 1)
    | kind =>
      match collectionAt? context kind with
      | some node => some (⟨node, anchor, mark⟩, rest)
      | none =>
        if anchor.isSome || tag.isSome then
          some (⟨.scalar ⟨"", .plain⟩ tag, anchor, mark⟩, rest)
        else
          none

def Placed.isCollection (p : Placed) : Bool :=
  p.node == .sequence || p.node == .mapping

/-- How the entries of a mapping ended: with the tokens behind it, or not at
all. -/
abbrev Tail := Except Ending (List Token)

inductive Expecting where
  /-- The first key, or the end. -/
  | firstKey
  /-- A key, or the end. -/
  | key
  /-- The value of a key. -/
  | value
  /-- No value: the key stands alone. -/
  | noValue
  deriving DecidableEq, Repr

def isBare (following : TokenKind) : Bool :=
  following == .key || following == .value || following == .blockEnd

/-- Where the entry of a block mapping goes on: with a node, with a scalar that
is not there, or at the end. -/
inductive EntryStep where
  | node (tokens : List Token) (next : Expecting)
  | empty (mark : Mark) (tokens : List Token) (next : Expecting)
  | finish (tokens : List Token)
  | fault

def EntryStep.inBlock (expecting : Expecting) (tokens : List Token) : EntryStep :=
  match expecting, tokens with
  | _, [] => .fault
  | .value, ⟨.value, _, stop⟩ :: rest =>
    match rest with
    | [] => .fault
    | t :: _ => if isBare t.kind then .empty stop rest .key else .node rest .key
  | .value, t :: rest => .empty t.start (t :: rest) .key
  | _, ⟨.key, _, stop⟩ :: rest =>
    match rest with
    | [] => .fault
    | t :: _ =>
      if isBare t.kind then .empty stop rest .value else .node rest .value
  | _, ⟨.blockEnd, _, _⟩ :: rest => .finish rest
  | _, _ => .fault

def isFlowBare (following : TokenKind) : Bool :=
  following == .flowEntry || following == .flowMappingEnd

def EntryStep.flowKey (tokens : List Token) : EntryStep :=
  match tokens with
  | ⟨.key, _, _⟩ :: t :: rest =>
    if t.kind == .value || isFlowBare t.kind then
      .empty t.start (t :: rest) .value
    else .node (t :: rest) .value
  | ⟨.flowMappingEnd, _, _⟩ :: rest => .finish rest
  | [] => .fault
  | [⟨.key, _, _⟩] => .fault
  | tokens => .node tokens .noValue

def EntryStep.inFlow (expecting : Expecting) (tokens : List Token) :
    EntryStep :=
  match expecting, tokens with
  | _, [] => .fault
  | .noValue, t :: rest => .empty t.start (t :: rest) .key
  | .value, ⟨.value, _, _⟩ :: rest =>
    match rest with
    | [] => .fault
    | t :: _ =>
      if isFlowBare t.kind then .empty t.start rest .key else .node rest .key
  | .value, t :: rest => .empty t.start (t :: rest) .key
  | .firstKey, tokens => .flowKey tokens
  | .key, ⟨.flowMappingEnd, _, _⟩ :: rest => .finish rest
  | .key, ⟨.flowEntry, _, _⟩ :: rest => .flowKey rest
  | .key, _ => .fault

def readEntries (step : Expecting → List Token → EntryStep)
    (handles : Handles) (context : Context) :
    Nat → Expecting → List Token → List Placed × Tail
  | 0, _, _ => ([], .error .malformed)
  | fuel + 1, expecting, tokens =>
    match step expecting tokens with
    | .fault => ([], .error .malformed)
    | .finish rest => ([], .ok rest)
    | .empty mark rest next =>
      let after := readEntries step handles context fuel next rest
      (.empty mark :: after.1, after.2)
    | .node rest next =>
      match readNode handles context rest with
      | none => ([], .error .malformed)
      | some (node, rest) =>
        if node.isCollection then ([node], .error .nested)
        else
          let after := readEntries step handles context fuel next rest
          (node :: after.1, after.2)

/-- The directives in front of a document: at most one version, which must be
1.1 or 1.2, and each handle once. -/
def readDirectives (version : Bool) (handles : Handles) :
    List Token → Option (Handles × List Token)
  | ⟨.directive (.version major minor), _, _⟩ :: rest =>
    if version || major != 1 || (minor != 1 && minor != 2) then none
    else readDirectives true handles rest
  | ⟨.directive (.handle handle meaning), _, _⟩ :: rest =>
    if (handles.lookup handle).isSome then none
    else readDirectives version (handles ++ [(handle, meaning)]) rest
  | rest => some (handles, rest)

def endingOf (complete : Bool) (rest : List Token) : Ending :=
  if rest.isEmpty then .malformed
  else if complete && rest.all fun t =>
      t.kind == .documentEnd || t.kind == .streamEnd then .complete
  else .surplus

def readRoot (handles : Handles) (complete : Bool) (tokens : List Token) :
    Document :=
  match readNode handles .block tokens with
  | none => { root := none, ending := .malformed }
  | some (root, rest) =>
    let entries (r : List Placed × Tail) : Document :=
      { root, entries := r.1
        ending :=
          match r.2 with
          | .ok rest => endingOf complete rest
          | .error ending => ending }
    match root.node, rest with
    | .mapping, ⟨.blockMappingStart, _, _⟩ :: rest =>
      entries (readEntries EntryStep.inBlock handles .entry (2 * rest.length + 2)
        .firstKey rest)
    | .mapping, _ :: rest =>
      entries (readEntries EntryStep.inFlow handles .flow (2 * rest.length + 2)
        .firstKey rest)
    | .sequence, _ => { root, ending := .nested }
    | _, rest => { root, ending := endingOf complete rest }

def readContent (handles : Handles) (complete : Bool) (tokens : List Token) :
    Document :=
  match tokens with
  | [] => { root := none, ending := .malformed }
  | t :: _ =>
    match t.kind with
    | .directive _ | .documentStart | .documentEnd | .streamEnd =>
      { root := some (.empty t.start), ending := endingOf complete tokens }
    | _ => readRoot handles complete tokens

/-- The first document of a text. Without any there is no root. -/
def Document.read (text : String) : Document :=
  let (tokens, complete) := tokens text.toList
  match tokens with
  | [] => { root := none, ending := .malformed }
  | t :: _ =>
    match t.kind with
    | .streamEnd => { root := none, ending := .complete }
    | .directive _ | .documentStart =>
      match readDirectives false [] tokens with
      | some (declared, ⟨.documentStart, _, _⟩ :: rest) =>
        readContent (declared ++ Handles.standard) complete rest
      | _ => { root := none, ending := .malformed }
    | _ => readRoot Handles.standard complete tokens

end SchemaLedger.Yaml
