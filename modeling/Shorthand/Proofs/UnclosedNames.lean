import Shorthand.Proofs.AllOrNothing
import Shorthand.Proofs.Legibility

/-!
# Names that are not closed

Whatever an expression expands to can be shown as data, as an outline and as a tree. HTML is the
exception: a name that starts with a brace is taken for one with a namespace, and without a closing
brace it cannot be split. So HTML is written if and only if all names in it are closed, and the
first one that is not cuts the command short (`settles_toHtml`). A tag or the name of an attribute
can only be unclosed if its leaf has a second text block, which lint reports, or if it is the
default tag (`lint_of_unclosed`).
-/

namespace Shorthand

open Html (UnclosedName)

/-! ### Namespaces -/

namespace Html

/-- A name that starts with a brace has a closing one as well. -/
def Closed (name : Text) : Prop :=
  name.head? = some (.char '{') → .char '}' ∈ name

instance : DecidablePred Closed :=
  fun _ => inferInstanceAs (Decidable (_ → _))

theorem closed_of_notMem {name : Text} (h : .char '{' ∉ name) : Closed name :=
  fun hhead => absurd (List.mem_of_mem_head? hhead) h

/-- The names that cannot be split. -/
def unclosed (names : List Text) : List UnclosedName :=
  (names.filter fun name => ¬ Closed name).map UnclosedName.mk

theorem mem_unclosed_iff {names : List Text} {u : UnclosedName} :
    u ∈ unclosed names ↔ u.name ∈ names ∧ ¬ Closed u.name := by
  obtain ⟨name⟩ := u
  simp [unclosed]

theorem unclosed_eq_nil_iff {names : List Text} :
    unclosed names = [] ↔ ∀ name ∈ names, Closed name := by
  simp [unclosed, List.filter_eq_nil_iff]

theorem unclosed_append (names more : List Text) :
    unclosed (names ++ more) = unclosed names ++ unclosed more := by
  rw [unclosed, List.filter_append, List.map_append]
  rfl

theorem unclosed_cons (name : Text) (names : List Text) :
    unclosed (name :: names) = (if Closed name then [] else [⟨name⟩]) ++ unclosed names := by
  rw [← List.singleton_append, unclosed_append]
  by_cases h : Closed name <;> simp [unclosed, h]

theorem unclosed_flatMap {α : Type} (f : α → List Text) :
    ∀ xs : List α, unclosed (xs.flatMap f) = xs.flatMap fun x => unclosed (f x)
  | [] => rfl
  | x :: xs => by
    rw [List.flatMap_cons, List.flatMap_cons, unclosed_append, unclosed_flatMap f xs]

theorem closed_cons_iff {r : Text} : Closed (.char '{' :: r) ↔ .char '}' ∈ r := by
  simp [Closed]

theorem settles_of_closed {α : Type} {name : Text} (h : Closed name) (x : α) :
    Settles (fun _ => True) (unclosed [name]) (.ok x) := by
  rw [unclosed_eq_nil_iff.2 (by simpa using h)]
  exact .ok trivial

theorem settles_splitName (name : Text) :
    Settles (fun _ => True) (unclosed [name]) (splitName name) := by
  unfold splitName
  split
  · rename_i r
    rcases hcut : Text.cutLast '}' r with _ | ⟨uri, localName⟩
    · have hr := Text.cutLast_eq_none_iff.1 hcut
      have hname : ¬ Closed (.char '{' :: r) := mt closed_cons_iff.1 hr
      simp [unclosed, hname, Settles]
    · obtain ⟨rfl, -⟩ := Text.cutLast_eq_some_iff.1 hcut
      exact settles_of_closed (closed_cons_iff.2 (by simp)) _
  · rename_i hbrace
    refine settles_of_closed (fun hhead => ?_) _
    obtain ⟨r, rfl⟩ := List.head?_eq_some_iff.1 hhead
    exact absurd rfl (hbrace r)

/-- Declarations fail in no other way. -/
theorem settles_declare (d : Declared) (name : Text) :
    Settles (fun _ => True) (unclosed [name]) (declare d name) := by
  refine (settles_splitName name).bind_ok fun split _ => ?_
  rcases split with ⟨_ | uri, localName⟩
  · exact .ok trivial
  · dsimp only
    split_ifs <;> exact .ok trivial

theorem settles_document (e : Element) :
    Settles (fun _ => True) (unclosed (names e)) (document e) := by
  have hnames : (names e).flatMap (fun name => unclosed [name]) = unclosed (names e) := by
    rw [← unclosed_flatMap, List.flatMap_singleton']
  refine Settles.bind_ok (P := fun _ => True) ?_ fun d _ => .ok trivial
  rw [← hnames]
  exact Settles.foldlM trivial fun d _ name _ => settles_declare d name

end Html

/-! ### Names of nodes -/

namespace Element

theorem written_eq (id : Option Text) (classes : List Text) (attributes : List (Text × Text)) :
    written id classes attributes = written id classes [] ++ attributes := by
  simp [written]

/-- What is written before the attributes is the identifier and the classes. -/
theorem name_of_mem_written {id : Option Text} {classes : List Text} {p : Text × Text}
    (hp : p ∈ written id classes []) : p.1 = "id" ∨ p.1 = "class" := by
  unfold written at hp
  simp only [List.append_nil, List.mem_append] at hp
  rcases hp with hp | hp
  · rcases hid : nonEmpty id with _ | i <;> rw [hid] at hp
    · cases hp
    · exact .inl (congrArg Prod.fst (List.mem_singleton.1 hp))
  · rw [List.mem_ite_nil_left, List.mem_singleton] at hp
    exact .inr (congrArg Prod.fst hp.2)

end Element

/-- The names that a node gives in markup, but for those of the identifier and the classes. -/
def Node.markupNames (n : Node) : List Text :=
  n.tag :: n.attributes.map (·.1)

/-- All names that are written, in order. -/
def markupNames (ns : List Node) : List Text :=
  (forestElements ns).flatMap Node.markupNames

namespace Html

theorem head?_unclosed (names : List Text) :
    (unclosed names).head? = (names.find? fun name => ¬ Closed name).map UnclosedName.mk := by
  rw [unclosed, List.head?_map, List.head?_filter]

/-- The first unclosed name of some attributes is also the first of those that are there once. -/
theorem head?_unclosed_putAll (pairs : List (Text × Text)) :
    (unclosed ((Entries.putAll pairs).map (·.1))).head? = (unclosed (pairs.map (·.1))).head? := by
  rw [head?_unclosed, head?_unclosed, (LastWins.putAll pairs).names, find?_eraseDups]

/-- The names of the identifier and of the classes are closed. -/
theorem unclosed_written (id : Option Text) (classes : List Text)
    (attributes : List (Text × Text)) :
    unclosed ((Element.written id classes attributes).map (·.1))
      = unclosed (attributes.map (·.1)) := by
  have hnil : unclosed ((Element.written id classes []).map (·.1)) = [] := by
    rw [unclosed_eq_nil_iff, List.forall_mem_map]
    intro p hp
    rcases Element.name_of_mem_written hp with h | h <;> rw [h] <;> decide
  rw [Element.written_eq, List.map_append, unclosed_append, hnil, List.nil_append]

mutual

theorem head?_unclosed_names : ∀ n : Node, (unclosed (names (.ofNode n))).head?
    = (unclosed (n.elements.flatMap Node.markupNames)).head?
  | ⟨tag, id, classes, attributes, text, children⟩ => by
    have hown : (unclosed ((Entries.putAll (Element.written id classes attributes)).map
        (·.1))).head? = (unclosed (attributes.map (·.1))).head? := by
      rw [head?_unclosed_putAll, unclosed_written]
    rw [Element.ofNode, names, Node.elements, List.flatMap_cons, Node.markupNames]
    simp only [List.cons_append, unclosed_cons, unclosed_append, List.head?_append, hown,
      head?_unclosed_namesOfAll children]
    rw [markupNames]

theorem head?_unclosed_namesOfAll : ∀ ns : List Node,
    (unclosed (namesOfAll (Element.ofNodes ns))).head? = (unclosed (markupNames ns)).head?
  | [] => rfl
  | n :: ns => by
    rw [Element.ofNodes, namesOfAll, markupNames, forestElements, List.flatMap_append,
      unclosed_append, unclosed_append, List.head?_append, List.head?_append,
      head?_unclosed_names n, head?_unclosed_namesOfAll ns, markupNames]

end

end Html

/-- Rendering fails with the first unclosed name, and without any it does not fail. -/
theorem settles_toHtml (ns : List Node) :
    Settles (fun _ => True) (Html.unclosed (markupNames ns)) (toHtml ns) := by
  have hnames : Html.namesOfAll (Element.ofNodes ns)
      = (Element.ofNodes ns).flatMap Html.names := by
    induction Element.ofNodes ns with
    | nil => rfl
    | cons e es ih => rw [Html.namesOfAll, ih, List.flatMap_cons]
  refine Settles.of_head?_eq ?_ (Html.head?_unclosed_namesOfAll ns)
  rw [hnames, Html.unclosed_flatMap]
  refine (Settles.mapM (R := fun _ _ => True) fun e _ => Html.settles_document e).bind_ok
    fun documents _ => .ok trivial

/-- The tag and the names of the attributes are closed. -/
def Node.Closed (n : Node) : Prop :=
  ∀ name ∈ n.markupNames, Html.Closed name

theorem unclosed_markupNames_eq_nil_iff (ns : List Node) :
    Html.unclosed (markupNames ns) = [] ↔ ∀ n ∈ ns, n.Everywhere Node.Closed := by
  rw [Html.unclosed_eq_nil_iff, markupNames, List.forall_mem_flatMap, forestElements_eq_flatMap,
    List.forall_mem_flatMap]
  refine forall₂_congr fun n _ => ⟨n.everywhere_of_elements, fun h => ?_⟩
  exact fun k hk => h.of_mem_elements (P := Node.Closed) hk

/-! ### Leaves with a second text block -/

/-- An unclosed name is the default tag, or it comes from a leaf with two text blocks. -/
theorem Leaf.manyTexts_of_unclosed {defaultTag t name : Text} {e : Option Text} {n : Node}
    (h : expand defaultTag e t = .ok n) (hname : name ∈ n.markupNames)
    (hclosed : ¬ Html.Closed name) :
    name = defaultTag ∨ Flaw.manyTexts.FoundIn t ∧ name ⊆ t := by
  have hfields := fieldsOf_expand h
  have hmany {u : Text} (hu : name ⊆ u) (hnot : t.count (.char '{') ≤ 1 → .char '{' ∉ u) :
      Flaw.manyTexts.FoundIn t := by
    by_contra hcount
    exact hclosed (Html.closed_of_notMem fun hm => hnot (Nat.le_of_not_lt hcount) (hu hm))
  rcases List.mem_cons.1 hname with rfl | hname
  · rcases tag_selector defaultTag (split t).selector with heq | ⟨-, htag⟩
    · exact .inl (hfields.tag.trans heq)
    · rw [← hfields.tag] at htag
      obtain ⟨front, hfront, hselector⟩ := exists_selector_subset t
      have hsub := List.Subset.trans htag.subset hselector
      exact .inr ⟨hmany hsub hfront.notMem, List.Subset.trans hsub hfront.isPrefix.subset⟩
  · obtain ⟨a, ha, rfl⟩ := List.mem_map.1 hname
    obtain ⟨block, hblock, hpair⟩ := hfields.exists_block ha
    exact .inr ⟨hmany hpair.subset.1 hblock.notMem,
      List.Subset.trans hpair.subset.1 hblock.isInfix.subset⟩

/-- Lint reports the leaf that an unclosed name comes from. -/
theorem lint_of_unclosed {s : Settings} {source : Text} {drawn : Nat} {ns : List Node}
    (h : expand s source drawn = .ok ns) {u : UnclosedName}
    (hu : u ∈ Html.unclosed (markupNames ns)) : u.name = s.defaultTag
      ∨ ∃ leaf, ⟨.manyTexts, Text.normalize source, some leaf⟩ ∈ lint source ∧ u.name ⊆ leaf := by
  obtain ⟨hname, hclosed⟩ := Html.mem_unclosed_iff.1 hu
  obtain ⟨k, hk, hname⟩ := List.mem_flatMap.1 hname
  obtain ⟨tokens, chains, ht, hc, hnodes⟩ := tree_of_expand h
  obtain ⟨leaf, hl, hexpand⟩ := (chainNodes_keeps hnodes).exists_leaf hk
  refine (Leaf.manyTexts_of_unclosed hexpand hname hclosed).imp_right ?_
  exact fun ⟨hflaw, hsub⟩ =>
    ⟨leaf, Lint.mem_lint_of_leaf (TokenSource.fitFor_of_forText ht) hc hl hflaw, hsub⟩

/-! ### Commands -/

namespace Command

open Batch (Expands runs)

/-- How a command ends that is to print some HTML, or to write it to `out`, if the names in
`unclosed` cannot be split: the first of them cuts it short, before it has touched any file. -/
structure EndsBy (unclosed : List UnclosedName) (s : Store) (out : Option Text) (o : Outcome) :
    Prop where
  printed : unclosed = [] → out = none → o.exitCode = some 0
  interrupted : ∀ u, o.ending = .interrupted (.name u) ↔ unclosed.head? = some u
  store : unclosed ≠ [] → o.store = s

section

variable {unclosed : List UnclosedName} {s : Store} {out : Option Text} {o : Outcome}

theorem endsBy_of_settles {html : Except UnclosedName Text} (rest : Text → Ending × Store)
    (h : Settles (fun _ => True) unclosed html)
    (herror : ∀ n, html = .error n → (o.ending, o.store) = (.interrupted (.name n), s))
    (hok : ∀ t, html = .ok t → (o.ending, o.store) = rest t)
    (hrest : ∀ t n, (rest t).1 ≠ .interrupted (.name n))
    (hprinted : out = none → ∀ t, ∃ u, (rest t).1 = .printed u 0) : EndsBy unclosed s out o := by
  rcases unclosed with _ | ⟨n, ns⟩
  · obtain ⟨t, ht, -⟩ := h
    have hending : o.ending = (rest t).1 := congrArg Prod.fst (hok t ht)
    refine ⟨fun _ hout => ?_, fun u => ?_, fun hne => absurd rfl hne⟩
    · obtain ⟨u, hu⟩ := hprinted hout t
      rw [Outcome.exitCode, hending, hu]
    · rw [hending]
      exact ⟨fun hu => absurd hu (hrest t u), fun hu => by cases hu⟩
  · obtain ⟨hending, hstore⟩ := Prod.mk.inj (herror n h)
    refine ⟨fun hnil => absurd hnil (List.cons_ne_nil n ns), fun u => ?_, fun _ => hstore⟩
    rw [hending]
    simp

theorem endsBy_runExpand {settings : Settings} {settingsPath : Option Text} {source : Text}
    {drawn : Nat} {ns : List Node} (hs : Settings.load s settingsPath = .ok settings)
    (h : Shorthand.expand settings source drawn = .ok ns) :
    EndsBy (Html.unclosed (markupNames ns)) s none
      (runExpand s source false "html" settingsPath) := by
  have hf : expandFormats.lookup (Text.ofString "html") = some .html := by decide
  have hrun : (Shorthand.run settings source).result = .ok ns :=
    (Batch.result_run (Settings.valid_load hs) source drawn).trans h
  have hending : (runExpand s source false "html" settingsPath).ending = showNodes ns .html := by
    simp only [runExpand, hf, hs, runExpression, Bool.false_eq_true, if_false, hrun]
  have hstore : (runExpand s source false "html" settingsPath).store = s := by
    simp only [runExpand, hf, hs]
  refine endsBy_of_settles (fun t => (printed t, s)) (settles_toHtml ns) (fun n hn => ?_)
    (fun t ht => ?_) (fun t n hn => by cases hn) fun _ t => ⟨_, rfl⟩
  · rw [hending, hstore, showNodes, hn]
  · rw [hending, hstore, showNodes, ht]

theorem settles_htmlLines : ∀ forests : List (Text × List Node),
    Settles (fun _ => True) (forests.flatMap fun q => Html.unclosed (markupNames q.2))
      (htmlLines forests)
  | [] => .ok trivial
  | (name, ns) :: forests => by
    rw [htmlLines, List.flatMap_cons]
    refine (settles_toHtml ns).bind fun html _ => ?_
    exact (settles_htmlLines forests).bind_ok fun lines _ => .ok trivial

theorem endsBy_runBatch {settings : Settings} {settingsPath : Option Text} {path : Text}
    {drawn : Nat} {b : Batch} {forests : List (Text × List Node)}
    (hs : Settings.load s settingsPath = .ok settings) (hb : Batch.load s path = .ok b)
    (h : Expands settings drawn b forests) (out : Option Text) :
    EndsBy (forests.flatMap fun q => Html.unclosed (markupNames q.2)) s out
      (runBatch s path "html" settingsPath out) := by
  have hf : batchFormats.lookup (Text.ofString "html") = some .html := by decide
  have hdeliver (t : Text) (n : UnclosedName) :
      (deliver s b.length out t).1 ≠ .interrupted (.name n) := by
    unfold deliver
    dsimp only
    split
    · nofun
    · nofun
    · split <;> nofun
  have hending := (Batch.ending_runBatch hf hb hs out).trans
    (Batch.endBatch_of_expands (Settings.valid_load hs) h)
  rw [showBatch] at hending
  refine endsBy_of_settles (deliver s b.length out) (settles_htmlLines forests) (fun n hn => ?_)
    (fun t ht => ?_) hdeliver fun hout t => ⟨_, by rw [hout]; rfl⟩
  · rw [hending, hn]
  · rw [hending, ht]

end

end Command

/-- What becomes of the nodes that an expression expands to as HTML. -/
structure HtmlOf (settings : Settings) (source : Text) (ns : List Node) : Prop where
  closed : (∃ t, toHtml ns = .ok t) ↔ ∀ n ∈ ns, n.Everywhere Node.Closed
  first : ∀ u, toHtml ns = .error u ↔ (Html.unclosed (markupNames ns)).head? = some u
  reported : ∀ u ∈ Html.unclosed (markupNames ns), u.name = settings.defaultTag
    ∨ ∃ leaf, ⟨.manyTexts, Text.normalize source, some leaf⟩ ∈ lint source ∧ u.name ⊆ leaf
  linted : Html.Closed settings.defaultTag → (∀ f ∈ lint source, f.flaw ≠ .manyTexts) →
    ∃ t, toHtml ns = .ok t

theorem htmlOf_expand {settings : Settings} {source : Text} {drawn : Nat} {ns : List Node}
    (h : expand settings source drawn = .ok ns) : HtmlOf settings source ns := by
  have hsettles := settles_toHtml ns
  refine ⟨?_, fun u => hsettles.error_iff, fun u hu => lint_of_unclosed h hu, fun htag hlint => ?_⟩
  · exact hsettles.exists_ok_iff.trans (unclosed_markupNames_eq_nil_iff ns)
  · refine hsettles.exists_ok_iff.2 (List.eq_nil_iff_forall_not_mem.2 fun u hu => ?_)
    rcases lint_of_unclosed h hu with heq | ⟨leaf, hleaf, -⟩
    · exact (Html.mem_unclosed_iff.1 hu).2 (heq ▸ htag)
    · exact hlint _ hleaf rfl

/-- What an expression expands to is written as HTML if and only if all its names are closed. The
commands print it then, and else the first name that is not closed cuts them short. Lint tells where
such a name comes from. -/
theorem html_of_expand {s : Store} {settingsPath : Option Text} {settings : Settings}
    (hs : Settings.load s settingsPath = .ok settings) (drawn : Nat) :
    (∀ source ns, expand settings source drawn = .ok ns → HtmlOf settings source ns
        ∧ Command.EndsBy (Html.unclosed (markupNames ns)) s none
          (Command.runExpand s source false "html" settingsPath))
      ∧ ∀ path b forests out, Batch.load s path = .ok b →
        Batch.Expands settings drawn b forests →
        Command.EndsBy (forests.flatMap fun q => Html.unclosed (markupNames q.2)) s out
          (Command.runBatch s path "html" settingsPath out) :=
  ⟨fun _ _ h => ⟨htmlOf_expand h, Command.endsBy_runExpand hs h⟩,
    fun _ _ _ out hb h => Command.endsBy_runBatch hs hb h out⟩

/-- The name of an element is in braces, and that of an attribute only starts with one. -/
def bracesStore : Store where
  entries := [(["b.txt"], .file
    ("ul>\x7bu\x7dli\x7bt\x7d\na[\x7bk=1]\x7bt\x7d\n".toList.map fun c => c.toNat.toUInt8))]

def bracesBatch : Batch :=
  [("1", "ul>\x7bu\x7dli\x7bt\x7d"), ("2", "a[\x7bk=1]\x7bt\x7d")]

theorem html_of_expand_of_braces :
    Settings.load bracesStore none = .ok {}
      ∧ (∃ ns, expand {} "ul>\x7bu\x7dli\x7bt\x7d" = .ok ns ∧ HtmlOf {} "ul>\x7bu\x7dli\x7bt\x7d" ns
        ∧ Command.EndsBy (Html.unclosed (markupNames ns)) bracesStore none
          (Command.runExpand bracesStore "ul>\x7bu\x7dli\x7bt\x7d" false "html" none))
      ∧ Batch.load bracesStore "b.txt" = .ok bracesBatch
      ∧ ∃ forests, Batch.Expands {} 0 bracesBatch forests
        ∧ Command.EndsBy (forests.flatMap fun q => Html.unclosed (markupNames q.2)) bracesStore
          (some "o.html") (Command.runBatch bracesStore "b.txt" "html" none (some "o.html")) := by
  have hs : Settings.load bracesStore none = .ok {} := rfl
  have hb : Batch.load bracesStore "b.txt" = .ok bracesBatch := by decide +kernel
  have hok : ∀ p ∈ bracesBatch, (expand {} p.2).isOk = true := by decide +kernel
  obtain ⟨hsource, hbatch⟩ := html_of_expand hs 0
  obtain ⟨ns, hns⟩ := isOk_iff.1 (hok _ List.mem_cons_self)
  obtain ⟨forests, hforests⟩ := Batch.exists_expands fun p hp => isOk_iff.1 (hok p hp)
  exact ⟨hs, ⟨ns, hns, hsource _ ns hns⟩, hb, forests, hforests,
    hbatch "b.txt" bracesBatch forests (some "o.html") hb hforests⟩

/-- Of two braces that open something, the second one opens the text block. -/
theorem unclosed_of_expand_braces :
    (expand {} "\x7ba\x7bb\x7d").toOption.map toHtml = some (.error ⟨"\x7ba"⟩)
      ∧ (Command.runExpand {} "\x7ba\x7bb\x7d" false "html" none).exitCode = none
      ∧ (∀ p ∈ bracesBatch, (expand {} p.2).isOk)
      ∧ (Command.runBatch bracesStore "b.txt" "html" none none).exitCode = none := by
  decide +kernel

end Shorthand
