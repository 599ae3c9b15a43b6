import Shorthand.Data
import Shorthand.Proofs.LastWins

/-!
# Plain data read back

The plain data of nodes loses nothing. A reader that takes an absent identifier or text for none,
and an absent list for an empty one (`nodeOf`), gets every node back (`node?_ofNode`). It looks
fields up by their keys, so that nodes that differ have plain data that differ whatever the order of
the fields (`Same`).
-/

namespace Shorthand

namespace Data

variable {α : Type}

/-! ### Reading -/

def text? : Data → Option Text
  | text t => some t
  | _ => none

def pair? : Data → Option (Text × Text)
  | list [name, value] => do return (← name.text?, ← value.text?)
  | _ => none

def list? (read : Data → Option α) : Data → Option (List α)
  | list items => items.mapM read
  | _ => none

/-- Reads a field, or takes it for `absent` if it is not there. -/
def fieldOr (absent : α) (read : Data → Option α) : Option Data → Option α
  | none => some absent
  | some d => read d

def optional (d : Option Data) : Option (Option Text) :=
  fieldOr none (fun d => d.text?.map some) d

/-- The node with the given fields and with children that are read from theirs. -/
def nodeOf (field : Text → Option Data) (children : Option (List Node)) : Option Node := do
  let tag ← (field "tag").bind text?
  let id ← optional (field "id")
  let classes ← fieldOr [] (list? text?) (field "classes")
  let attributes ← fieldOr [] (list? pair?) (field "attributes")
  let content ← optional (field "text")
  return ⟨tag, id, classes, attributes, content, ← children⟩

mutual

/-- The node that plain data are of. -/
def node? : Data → Option Node
  | record entries => nodeOf (entries.lookup ·) (childrenIn entries)
  | _ => none

def childrenIn : List (Text × Data) → Option (List Node)
  | [] => some []
  | (key, d) :: r => if "children" = key then nodesOf d else childrenIn r

def nodesOf : Data → Option (List Node)
  | list items => nodes? items
  | _ => none

def nodes? : List Data → Option (List Node)
  | [] => some []
  | d :: ds => do return (← node? d) :: (← nodes? ds)

end

theorem nodes?_eq : ∀ ds : List Data, nodes? ds = ds.mapM node?
  | [] => rfl
  | d :: ds => by rw [nodes?, nodes?_eq ds, List.mapM_cons]

theorem nodesOf_eq (d : Data) : nodesOf d = list? node? d := by
  cases d with
  | list items => rw [nodesOf, nodes?_eq, list?]
  | _ => rfl

/-- The field is looked up while the entries are gone through, which makes the recursion
structural. -/
theorem childrenIn_eq : ∀ entries : List (Text × Data),
    childrenIn entries = fieldOr [] (list? node?) (entries.lookup (Text.ofString "children"))
  | [] => rfl
  | (key, d) :: r => by
    rw [childrenIn, childrenIn_eq r, nodesOf_eq, lookup_cons_eq]
    split_ifs
    · rfl
    · rfl

theorem node?_record (entries : List (Text × Data)) :
    node? (record entries) = nodeOf (entries.lookup ·)
      (fieldOr [] (list? node?) (entries.lookup (Text.ofString "children"))) := by
  rw [node?, childrenIn_eq]

/-! ### Fields as they are written -/

/-- The fields of a node in their order, after its tag. -/
def fields (n : Node) : List (Text × Data) :=
  ("tag", text n.tag) ::
    (textField "id" n.id ++
      (listField "classes" (n.classes.map text) ++
        (listField "attributes" (n.attributes.map pair) ++
          (textField "text" n.text ++ listField "children" (ofNodes n.children)))))

theorem ofNode_eq (n : Node) : ofNode n = record (fields n) := by
  cases n
  rw [ofNode, fields]

theorem lookup_textField (key k : Text) (value : Option Text) :
    (textField key value).lookup k = if k = key then value.map text else none := by
  cases value with
  | none => exact (ite_self none).symm
  | some t => exact lookup_cons_eq (key, text t) [] k

/-- What stands in a field that is left out if its list is empty. -/
def listValue (items : List Data) : Option Data :=
  if items = [] then none else some (list items)

theorem lookup_listField (key k : Text) (items : List Data) :
    (listField key items).lookup k = if k = key then listValue items else none := by
  cases items with
  | nil => exact (ite_self none).symm
  | cons d ds => exact lookup_cons_eq (key, list (d :: ds)) [] k

theorem optional_map (value : Option Text) : optional (value.map text) = some value := by
  cases value with
  | none => rfl
  | some t => rfl

theorem fieldOr_listValue (read : Data → Option α) (items : List Data) :
    fieldOr [] (list? read) (listValue items) = items.mapM read := by
  cases items with
  | nil => rfl
  | cons d ds => rfl

theorem text?_text (t : Text) : text? (text t) = some t :=
  rfl

theorem pair?_pair (p : Text × Text) : pair? (pair p) = some p :=
  rfl

/-- A list is read back if each of its items is. -/
theorem mapM_map_eq_some {read : Data → Option α} {write : α → Data}
    (h : ∀ a, read (write a) = some a) (l : List α) : (l.map write).mapM read = some l := by
  induction l with
  | nil => rfl
  | cons a l ih =>
    rw [List.map_cons, List.mapM_cons, h, ih]
    rfl

mutual

theorem node?_ofNode : ∀ n : Node, node? (ofNode n) = some n
  | ⟨tag, id, classes, attributes, content, children⟩ => by
    have hclasses := mapM_map_eq_some text?_text classes
    have hattributes := mapM_map_eq_some pair?_pair attributes
    have hchildren := mapM_node?_ofNodes children
    rw [ofNode_eq, node?_record]
    simp +decide [nodeOf, fields, lookup_cons_eq, List.lookup_append, lookup_textField,
      lookup_listField, optional_map, fieldOr_listValue, hclasses, hattributes, hchildren,
      text?_text]

theorem mapM_node?_ofNodes : ∀ ns : List Node, (ofNodes ns).mapM node? = some ns
  | [] => rfl
  | n :: ns => by
    rw [ofNodes, List.mapM_cons, node?_ofNode n, mapM_node?_ofNodes ns]
    rfl

end

/-! ### The order of the fields -/

mutual

/-- Plain data that may differ in the order of the fields of their records, and in nothing else. -/
inductive Same : Data → Data → Prop
  | refl (d : Data) : Same d d
  | list {ds es : List Data} : SameItems ds es → Same (list ds) (list es)
  | record {ds es : List (Text × Data)} :
      (∀ key : Text, SameField (ds.lookup key) (es.lookup key)) → Same (record ds) (record es)

inductive SameItems : List Data → List Data → Prop
  | nil : SameItems [] []
  | cons {d e : Data} {ds es : List Data} :
      Same d e → SameItems ds es → SameItems (d :: ds) (e :: es)

inductive SameField : Option Data → Option Data → Prop
  | none : SameField none none
  | some {d e : Data} : Same d e → SameField (some d) (some e)

end

theorem SameItems.refl : ∀ ds : List Data, SameItems ds ds
  | [] => .nil
  | d :: ds => .cons (.refl d) (SameItems.refl ds)

/-- A reader that gets the same from data that differ in the order of fields. -/
def Orderless (read : Data → Option α) : Prop :=
  ∀ {d e : Data}, Same d e → read d = read e

theorem SameItems.mapM_eq {read : Data → Option α} (h : Orderless read) :
    ∀ {ds es : List Data}, SameItems ds es → ds.mapM read = es.mapM read
  | _, _, .nil => rfl
  | _, _, .cons hd hds => by rw [List.mapM_cons, List.mapM_cons, h hd, hds.mapM_eq h]

theorem SameField.bind_eq {read : Data → Option α} (h : Orderless read) :
    ∀ {d e : Option Data}, SameField d e → d.bind read = e.bind read
  | _, _, .none => rfl
  | _, _, .some hd => h hd

/-- Absent or not, a field is read alike. -/
theorem SameField.fieldOr_eq {absent : α} {read : Data → Option α} (h : Orderless read) :
    ∀ {d e : Option Data}, SameField d e → fieldOr absent read d = fieldOr absent read e
  | _, _, .none => rfl
  | _, _, .some hd => h hd

theorem orderless_text? : Orderless text? := by
  rintro d e (_ | _ | _) <;> rfl

theorem SameField.optional_eq {d e : Option Data} (h : SameField d e) : optional d = optional e :=
  h.fieldOr_eq fun hd => congrArg (Option.map Option.some) (orderless_text? hd)

theorem orderless_pair? : Orderless pair? := by
  rintro d e (_ | (_ | ⟨hname, _ | ⟨hvalue, _ | _⟩⟩) | _)
  · rfl
  · rfl
  · rfl
  · rw [pair?, pair?, orderless_text? hname, orderless_text? hvalue]
  · rfl
  · rfl

theorem orderless_list? {read : Data → Option α} (h : Orderless read) :
    Orderless (list? read) := by
  rintro d e (_ | hitems | _)
  · rfl
  · exact hitems.mapM_eq h
  · rfl

mutual

/-- A reader of nodes does not see the order of the fields. -/
theorem Same.node?_eq : ∀ {d e : Data}, Same d e → node? d = node? e
  | _, _, .refl _ => rfl
  | _, _, .list _ => rfl
  | _, _, .record h => by
    rw [node?_record, node?_record, nodeOf, nodeOf, (h "tag").bind_eq orderless_text?,
      (h "id").optional_eq, (h "classes").fieldOr_eq (orderless_list? orderless_text?),
      (h "attributes").fieldOr_eq (orderless_list? orderless_pair?), (h "text").optional_eq,
      (h "children").children_eq]

theorem SameItems.mapM_node?_eq : ∀ {ds es : List Data}, SameItems ds es →
    ds.mapM node? = es.mapM node?
  | _, _, .nil => rfl
  | _, _, .cons hd hds => by
    rw [List.mapM_cons, List.mapM_cons, hd.node?_eq, hds.mapM_node?_eq]

theorem SameField.children_eq : ∀ {d e : Option Data}, SameField d e →
    fieldOr [] (list? node?) d = fieldOr [] (list? node?) e
  | _, _, .none => rfl
  | _, _, .some (.refl _) => rfl
  | _, _, .some (.list h) => h.mapM_node?_eq
  | _, _, .some (.record _) => rfl

end

/-- Nodes are read back from their plain data, at every depth and with whatever they hold. Forests
that differ have plain data that differ, whatever the order of the fields. -/
theorem node?_lossless :
    (∀ entries, node? (record entries) = nodeOf (entries.lookup ·)
        (fieldOr [] (list? node?) (entries.lookup (Text.ofString "children"))))
      ∧ (∀ n, node? (ofNode n) = some n)
      ∧ (∀ ns ms, SameItems (ofNodes ns) (ofNodes ms) → ns = ms)
      ∧ Function.Injective ofNodes := by
  have hsame : ∀ ns ms, SameItems (ofNodes ns) (ofNodes ms) → ns = ms := fun ns ms h =>
    Option.some.inj <| calc
      some ns = (ofNodes ns).mapM node? := (mapM_node?_ofNodes ns).symm
      _ = (ofNodes ms).mapM node? := h.mapM_node?_eq
      _ = some ms := mapM_node?_ofNodes ms
  exact ⟨node?_record, node?_ofNode, hsame, fun ns ms h => hsame ns ms (h ▸ .refl _)⟩

end Data

end Shorthand
