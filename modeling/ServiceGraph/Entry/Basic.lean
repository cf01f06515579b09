import ServiceGraph.Definition
import ServiceGraph.Failure

/-!
# Service entries

An entry of the services of a document becomes a definition or an alias (`Entry.read`). A text
`@id` is an alias of `id`. An object may use the keys `entryKeys` only; with an `alias` it is an
alias, and otherwise a definition, read key by key in a fixed order so that the first fault in
that order is the one reported. A key with value null counts as missing, except `deprecated`, and
except `public` beside an `alias`.
-/

set_option autoImplicit false

namespace ServiceGraph

/-- What an entry produces. -/
inductive Entry where
  | definition (definition : Definition)
  | aliasing (a : Alias)
  deriving Inhabited

/-- Where an entry is written: under which id, in which file. -/
structure EntrySite where
  id : String
  file : String
  deriving DecidableEq, Repr, Inhabited

namespace EntrySite

/-- A fault of the entry at this site. -/
def fault (site : EntrySite) (f : EntryFault) : Failure :=
  .invalidDefinition site.id site.file f

end EntrySite

namespace Entry

/-- Checks that an object uses the keys of an entry only. -/
def checkKeys (site : EntrySite) (fields : List (String × Json)) : Except Failure Unit :=
  match fields.find? fun field => field.1 ∉ entryKeys with
  | none => .ok ()
  | some field => .error (.unsupportedKey field.1 site.id site.file)

/-- The value of a key, if it is there and not null. -/
def present? (fields : List (String × Json)) (key : String) : Option Json :=
  match Json.member? key fields with
  | some .null => none
  | found => found

/-- The text at a key. -/
def readString (site : EntrySite) (fields : List (String × Json)) (key : String) :
    Except Failure (Option String) :=
  match present? fields key with
  | none => .ok none
  | some (.string s) => .ok (some s)
  | some _ => .error (site.fault (.notString key))

/-- The flag at a key. -/
def readFlag (site : EntrySite) (fields : List (String × Json)) (key : String) :
    Except Failure (Option Bool) :=
  match present? fields key with
  | none => .ok none
  | some (.bool b) => .ok (some b)
  | some _ => .error (site.fault (.notBoolean key))

/-- The values of an array; `key` names it in a fault. -/
def readValues (site : EntrySite) (key : String) : Json → Except Failure (List Value)
  | .array items => .ok (Value.ofItems items)
  | _ => .error (site.fault (.notArray key))

/-- The deprecation; the key alone sets it, even with value null. -/
def readDeprecation (site : EntrySite) (fields : List (String × Json)) :
    Except Failure (Option Deprecation) :=
  match Json.member? "deprecated" fields with
  | none => .ok none
  | some .null => .ok (some ⟨none⟩)
  | some value =>
    match Scalar.ofJson? value with
    | some scalar => .ok (some ⟨some scalar.text⟩)
    | none => .error (site.fault .deprecationNotText)

/-! ## Callables -/

/-- Whether a text has two colons next to each other. -/
def hasDoubleColon : List Char → Bool
  | ':' :: ':' :: _ => true
  | _ :: rest => hasDoubleColon rest
  | [] => false

/-- A callable written as a text: a function, or `service:method`. -/
def readCallableText (site : EntrySite) (key s : String) : Except Failure Callable :=
  let chars := s.toList
  if chars.head? = some '@' then .error (.referenceInCallable key site.id site.file s)
  else if hasDoubleColon chars || ':' ∉ chars then .ok (.function s)
  else
    let service := chars.takeWhile (· ≠ ':')
    let method := (chars.dropWhile (· ≠ ':')).tail
    if service = [] ∨ method = [] ∨ ':' ∈ method then .error (site.fault (.callableText key s))
    else .ok (.method (Value.ofText (String.ofList ('@' :: service))) (String.ofList method))

/-- A callable: a text, or a pair of a target and a method name. -/
def readCallableValue (site : EntrySite) (key : String) : Json → Except Failure Callable
  | .string s => readCallableText site key s
  | .array [target, .string method] =>
    if target.isNull then .error (site.fault (.callablePair key))
    else .ok (.method (Value.ofJson target) method)
  | .array _ => .error (site.fault (.callablePair key))
  | _ => .error (site.fault (.callableShape key))

/-- The callable at a key. -/
def readCallable (site : EntrySite) (fields : List (String × Json)) (key : String) :
    Except Failure (Option Callable) :=
  match present? fields key with
  | none => .ok none
  | some value => (readCallableValue site key value).map some

/-! ## Arguments, properties and calls -/

/-- The arguments. -/
def readArguments (site : EntrySite) (fields : List (String × Json)) :
    Except Failure (List Value) :=
  match present? fields "arguments" with
  | none => .ok []
  | some value => readValues site "arguments" value

/-- The properties. -/
def readProperties (site : EntrySite) (fields : List (String × Json)) :
    Except Failure (OrderedMap String Value) :=
  match present? fields "properties" with
  | none => .ok ∅
  | some (.object members) => .ok (OrderedMap.ofList (Value.ofMembers members))
  | some _ => .error (site.fault .propertiesNotObject)

/-- The method and the arguments written in one entry of the calls. -/
def splitCall (site : EntrySite) : Json → Except Failure (Option Json × Option Json)
  | .object members => .ok (Json.member? "method" members, Json.member? "arguments" members)
  | .array [] => .ok (none, none)
  | .array [method] => .ok (some method, none)
  | .array [method, arguments] => .ok (some method, some arguments)
  | _ => .error (site.fault .callShape)

/-- One entry of the calls. -/
def readCall (site : EntrySite) (value : Json) : Except Failure MethodCall := do
  let (method, arguments) ← splitCall site value
  match method with
  | some (.string method) =>
    match arguments with
    | none => return ⟨method, []⟩
    | some .null => return ⟨method, []⟩
    | some arguments => return ⟨method, ← readValues site "calls.arguments" arguments⟩
  | _ => throw (site.fault .callWithoutMethod)

/-- The calls. -/
def readCalls (site : EntrySite) (fields : List (String × Json)) :
    Except Failure (List MethodCall) :=
  match present? fields "calls" with
  | none => .ok []
  | some (.array items) => items.mapM (readCall site)
  | some _ => .error (site.fault (.notArray "calls"))

/-! ## Tags -/

/-- One attribute of a tag. -/
def readAttribute (site : EntrySite) (tag : String) (field : String × Json) :
    Except Failure (String × Scalar) :=
  match Scalar.ofJson? field.2 with
  | some scalar => .ok (field.1, scalar)
  | none => .error (.structuredAttribute site.id tag field.1 site.file)

/-- One entry of the tags. -/
def readTag (site : EntrySite) : Json → Except Failure Tag
  | .object members =>
    match Json.member? "name" members with
    | none => .error (site.fault .tagWithoutName)
    | some (.string name) =>
      if name = "" then .error (site.fault .tagNameEmpty)
      else do
        let attributes ← (members.filter fun field => field.1 ≠ "name").mapM
          (readAttribute site name)
        return ⟨name, OrderedMap.ofList attributes⟩
    | some _ => .error (site.fault .tagNameEmpty)
  | _ => .error (site.fault .tagShape)

/-- The tags. -/
def readTags (site : EntrySite) (fields : List (String × Json)) : Except Failure (List Tag) :=
  match present? fields "tags" with
  | none => .ok []
  | some (.array items) => items.mapM (readTag site)
  | some _ => .error (site.fault (.notArray "tags"))

/-! ## Decoration and autowiring types -/

/-- The decoration priority, 0 when it is missing. -/
def readPriority (site : EntrySite) (fields : List (String × Json)) :
    Except Failure Integer64.Signed :=
  match present? fields "decoration_priority" with
  | none => .ok 0
  | some (.number n) =>
    match n.toInt64? with
    | some i => .ok i
    | none => .error (site.fault (.notInteger "decoration_priority"))
  | some _ => .error (site.fault (.notInteger "decoration_priority"))

/-- The decoration; its other keys are read only when `decorates` is there. -/
def readDecoration (site : EntrySite) (fields : List (String × Json)) :
    Except Failure (Option Decoration) := do
  match ← readString site fields "decorates" with
  | none => return none
  | some id =>
    if id.toList.head? = some '@' then throw (.referenceInDecorates site.id site.file id)
    let innerName ← readString site fields "decoration_inner_name"
    let priority ← readPriority site fields
    return some ⟨id, innerName, priority⟩

/-- One autowiring type of a list. -/
def readAutowiringType (site : EntrySite) : Json → Except Failure String
  | .string s => .ok s
  | _ => .error (site.fault .autowiringTypeNotString)

/-- The autowiring types: one text or a list of texts. -/
def readAutowiringTypes (site : EntrySite) (fields : List (String × Json)) :
    Except Failure (List String) :=
  match present? fields "autowiring_types" with
  | none => .ok []
  | some (.string s) => .ok [s]
  | some (.array items) => items.mapM (readAutowiringType site)
  | some _ => .error (site.fault .autowiringTypesShape)

/-! ## Entries -/

/-- The definition written in an object with allowed keys. -/
def readDefinition (site : EntrySite) (fields : List (String × Json)) :
    Except Failure Definition := do
  let parent ← readString site fields "parent"
  let className ← readString site fields "class"
  let sharedFlag ← readFlag site fields "shared"
  let syntheticFlag ← readFlag site fields "synthetic"
  let lazyFlag ← readFlag site fields "lazy"
  let publicFlag ← readFlag site fields "public"
  let abstractFlag ← readFlag site fields "abstract"
  let deprecation ← readDeprecation site fields
  let factory ← readCallable site fields "factory"
  let file ← readString site fields "file"
  let arguments ← readArguments site fields
  let properties ← readProperties site fields
  let configurator ← readCallable site fields "configurator"
  let calls ← readCalls site fields
  let tags ← readTags site fields
  let decoration ← readDecoration site fields
  let autowireFlag ← readFlag site fields "autowire"
  let autowiringTypes ← readAutowiringTypes site fields
  return {
    parent, className, sharedFlag, lazyFlag, publicFlag, abstractFlag, syntheticFlag,
    autowireFlag, factory, configurator, file, arguments, properties, calls, tags, decoration,
    deprecation, autowiringTypes }

/-- Whether a value counts as true where any value may stand for a flag. -/
def isTruthy : Json → Bool
  | .null => false
  | .bool b => b
  | .number n => !n.isZero
  | .string s => s ≠ "" && s ≠ "0"
  | .array items => !items.isEmpty
  | .object _ => true

/-- Whether the alias written in an object is public: yes unless the key `public` is there with a
value that does not count as true. -/
def aliasIsPublic (fields : List (String × Json)) : Bool :=
  match Json.member? "public" fields with
  | none => true
  | some value => isTruthy value

/-- The entry written in an object. -/
def readObject (site : EntrySite) (fields : List (String × Json)) : Except Failure Entry := do
  checkKeys site fields
  match ← readString site fields "alias" with
  | some target => return .aliasing ⟨target, aliasIsPublic fields⟩
  | none => return .definition (← readDefinition site fields)

/-- The entry written in a JSON value. -/
def read (site : EntrySite) : Json → Except Failure Entry
  | .string s =>
    match s.toList with
    | '@' :: target => .ok (.aliasing ⟨String.ofList target, true⟩)
    | _ => .error (site.fault (.notAnEntry (Json.string s).typeName))
  | .object fields => readObject site fields
  | value => .error (site.fault (.notAnEntry value.typeName))

end Entry

end ServiceGraph
