import StyleCompiler.Json.Text
import StyleCompiler.Declaration

/-!
# Declarations as JSON

A declaration is an object with the members `name`, `kind`, `rules`, `selectors` and `media`, in
this order when written and in any order when read. Rule sets and groups are objects in their own
order. When read, every member has to be there once, others are passed over, and the list of the
five values in order will do as well. This is the form that `Serialize` and `Deserialize` derive for
`Declaration`, `DeclarationKind` and `RuleSet`.
-/

namespace StyleCompiler

/-! ## Writing -/

/-- A rule set as an object. -/
def RuleSet.json (rules : RuleSet) : List Char :=
  Json.object (rules.entries.map fun (property, value) => (property, Json.quote value))

/-- Groups as an object of objects. -/
def Groups.json (groups : Groups) : List Char :=
  Json.object (groups.entries.map fun (key, rules) => (key, RuleSet.json rules))

/-- A declaration as an object. -/
def Declaration.json (d : Declaration) : List Char :=
  Json.object
    [("name", Json.quote d.name), ("kind", Json.quote d.kind.label),
      ("rules", RuleSet.json d.rules), ("selectors", Groups.json d.selectors),
      ("media", Groups.json d.media)]

/-- The JSON text of a rule set. -/
def RuleSet.toJson (rules : RuleSet) : String := String.ofList (RuleSet.json rules)

/-- The JSON text of a declaration. -/
def Declaration.toJson (d : Declaration) : String := String.ofList d.json

/-! ## Reading -/

namespace Json

/-- Read an object as an ordered map: a repeated name keeps its first place and its last value. -/
def readMap {α : Type} (value : Reader α) : Reader (OrderedMap α) := fun cs => do
  let cs ← expect '{' cs
  let member (name : String) : Reader (String × α) := fun cs =>
    (value cs).map fun (v, r) => ((name, v), r)
  let (pairs, rest) ← readObject readString member cs
  return (OrderedMap.ofList pairs, rest)

/-- Read a rule set. -/
def readRules : Reader RuleSet := readMap readString

/-- Read groups. -/
def readGroups : Reader Groups := readMap readRules

/-- Read a kind: its name, or an object with its name as the only member and no value in it. -/
def readKind : Reader Kind := fun cs =>
  match skipBlanks cs with
  | '{' :: rest => do
    let (label, cs) ← readString rest
    let cs ← expect ':' cs
    let cs ← expectWord ['n', 'u', 'l', 'l'] (skipBlanks cs)
    let cs ← expect '}' cs
    return (← Kind.ofLabel? label, cs)
  | rest => do
    let (label, cs) ← readString rest
    return (← Kind.ofLabel? label, cs)

/-- One member of a declaration. -/
inductive DeclarationMember where
  | name (name : String)
  | kind (kind : Kind)
  | rules (rules : RuleSet)
  | selectors (groups : Groups)
  | media (groups : Groups)
  | unknown

/-- A reader of one kind of member. -/
def asMember {α : Type} (wrap : α → DeclarationMember) (value : Reader α) :
    Reader DeclarationMember := fun cs =>
  (value cs).map fun (v, rest) => (wrap v, rest)

/-- Read the member of the given name. -/
def readMember (name : String) : Reader DeclarationMember :=
  if name = "name" then asMember .name readString
  else if name = "kind" then asMember .kind readKind
  else if name = "rules" then asMember .rules readRules
  else if name = "selectors" then asMember .selectors readGroups
  else if name = "media" then asMember .media readGroups
  else asMember (fun _ => .unknown) skipAny

/-- The only value that `select` finds among the members. -/
def single? {α : Type} (select : DeclarationMember → Option α)
    (members : List DeclarationMember) : Option α :=
  match members.filterMap select with
  | [value] => some value
  | _ => none

/-- The declaration with the given members: each of the five has to be there exactly once. -/
def ofMembers? (members : List DeclarationMember) : Option Declaration := do
  return {
    name := ← single? (fun | .name n => some n | _ => none) members
    kind := ← single? (fun | .kind k => some k | _ => none) members
    rules := ← single? (fun | .rules r => some r | _ => none) members
    selectors := ← single? (fun | .selectors g => some g | _ => none) members
    media := ← single? (fun | .media g => some g | _ => none) members }

/-- Read a declaration: an object of members or the list of the five values. -/
def readDeclaration : Reader Declaration := fun cs =>
  match skipBlanks cs with
  | '{' :: rest => do
    let (members, rest) ← readObject readString readMember rest
    return (← ofMembers? members, rest)
  | '[' :: rest => do
    let (members, rest) ← readTuple
      [asMember .name readString, asMember .kind readKind, asMember .rules readRules,
        asMember .selectors readGroups, asMember .media readGroups] rest
    return (← ofMembers? members, rest)
  | _ => none

end Json

/-- The declaration that a JSON text describes. -/
def Declaration.ofJson? (text : String) : Option Declaration :=
  Json.readAll? Json.readDeclaration text

end StyleCompiler
