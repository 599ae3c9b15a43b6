import Shorthand.Group.Base
import Shorthand.Settings
import Shorthand.Store.Document
import Shorthand.Yaml.Reader

/-!
# Files of settings

A file that sets some of the settings, as a mapping in YAML. What it does not set keeps its default.
-/

namespace Shorthand

/-- One setting and what it is set to. -/
inductive Override where
  | defaultTag (tag : Text)
  | strictGrouping (strict : Bool)
  | placeholderBase (base : Option Text)
  deriving Repr, DecidableEq

namespace Settings

inductive Name where
  | defaultTag
  | placeholderBase
  | strictGrouping
  deriving Repr, DecidableEq

namespace Name

def all : List Name :=
  [defaultTag, placeholderBase, strictGrouping]

def toText : Name → Text
  | defaultTag => "default_tag"
  | placeholderBase => "placeholder_prefix"
  | strictGrouping => "strict_grouping"

def ofText? (t : Text) : Option Name :=
  all.find? fun n => n.toText = t

end Name

inductive Problem where
  | malformed (path : Path)
  | noMapping
  | unknown (shown : Text)
  | kind (name : Name) (kind : Text)
  | blankTag
  | unsafeBase
  deriving Repr, DecidableEq

def Problem.message : Problem → Text
  | malformed path => path.toText ++ ": invalid YAML"
  | noMapping => "config file must be a mapping of setting -> value"
  | unknown shown =>
    "unknown setting: " ++ shown ++ " (choose from: " ++
      (", " : Text).intercalate (Name.all.map Name.toText) ++ ")"
  | kind name k => "setting '" ++ name.toText ++ "' has invalid type " ++ k
  | blankTag => "default_tag must be a non-empty string"
  | unsafeBase =>
    "placeholder_prefix must start with a letter, use only letters, digits or '_'," ++
      " and must not overlap itself (e.g. 'a1_a')"

/-- Checks what a setting is set to. Blanks around the default tag do not count. -/
def override (name : Name) (v : Value) : Except Problem Override :=
  match name, v with
  | .defaultTag, .text t =>
    if (Text.trim t).isEmpty then .error .blankTag else .ok (.defaultTag (Text.trim t))
  | .strictGrouping, .bool b => .ok (.strictGrouping b)
  | .placeholderBase, .null => .ok (.placeholderBase none)
  | .placeholderBase, .text t =>
    if isSafeBase t then .ok (.placeholderBase (some t)) else .error .unsafeBase
  | name, v => .error (.kind name v.kind)

/-- Why settings are not loaded: their file holds the wrong things, cannot be read, or has a scalar
that is not what it says it is. A key that is no setting may also be too long to be shown. -/
inductive Failure where
  | problem (p : Problem)
  | longKey
  | document (f : DocumentFault)
  | scalar (f : Yaml.Fault)
  deriving Repr, DecidableEq

def entryOverride : Value × Value → Except Failure Override
  | (k, v) =>
    let name? := match k with
      | .text t => Name.ofText? t
      | _ => none
    match name?, k.shown? with
    | some name, _ => (override name v).mapError .problem
    | none, some shown => .error (.problem (.unknown shown))
    | none, none => .error .longKey

def overridesOf : Value → Except Failure (List Override)
  | .null => .ok []
  | .map entries => entries.mapM entryOverride
  | _ => .error (.problem .noMapping)

def overrides (s : Store) (path : Text) : Except Failure (List Override) :=
  let p := Path.ofText path
  match s.document p with
  | .error f => .error (.document f)
  | .ok t =>
    match Yaml.read 1 t with
    | .error .malformed => .error (.problem (.malformed p))
    | .error f => .error (.scalar f)
    | .ok v => overridesOf v

def apply (s : Settings) : Override → Settings
  | .defaultTag t => { s with defaultTag := t }
  | .strictGrouping b => { s with strictGrouping := b }
  | .placeholderBase b => { s with placeholderBase := b }

/-- The settings of a file, if one is named. -/
def load (s : Store) (path : Option Text) : Except Failure Settings :=
  match path with
  | none | some [] => .ok {}
  | some p => (overrides s p).map fun os => os.foldl apply {}

/-! ### Settings as named values -/

def fields (s : Settings) : List (Text × Value) :=
  [(Name.defaultTag.toText, .text s.defaultTag),
   (Name.strictGrouping.toText, .bool s.strictGrouping),
   (Name.placeholderBase.toText, s.placeholderBase.elim .null .text)]

/-- The default settings with some replaced by values that are taken as they are. The first name
that no setting has is refused. -/
def replaced (named : List (Text × Value)) : Except Text (List (Text × Value)) :=
  match named.find? fun (n, _) => (Name.ofText? n).isNone with
  | some (n, _) => .error n
  | none => .ok ((fields {}).map fun (n, v) => (n, (named.lookup n).getD v))

end Settings

end Shorthand
