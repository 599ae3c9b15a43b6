import Shorthand.Command.Run
import Shorthand.Proofs.BatchNames
import Shorthand.Proofs.Characters
import Shorthand.Proofs.Files
import Shorthand.Proofs.LoadedSettings
import Shorthand.Proofs.Strays

/-!
# A batch is expanded whole or not at all

If all expressions of a batch expand, their nodes are rendered under their names, in the order of
the file (`delivered_endBatch`). If one is rejected, nothing is printed and no file is touched; each
rejection gets a line, and these lines are in order (`refused_endBatch`). Besides, stray parentheses
are warned of (`warnings_runBatch`). With settings that have been loaded these are all cases, and
what is drawn for the tokens has no influence (`allOrNothing_runBatch`).

JSON has to be made of characters to be written to a file. The check of the settings lets through a
default tag that holds half of a surrogate pair, and then the run is cut short. Nor are the lines of
the rejections all that is shown as wrong, since an expression that is warned of may well expand
(`runBatch_of_half_and_stray`).
-/

namespace Shorthand

namespace Batch

open Command (BatchFormat batchData batchFormats deliver endBatch expanded interruption? runBatch
  showBatch)

/-- Each forest comes from the expression of the same place, under its name. -/
def Expands (settings : Settings) (drawn : Nat) (b : Batch)
    (forests : List (Text × List Node)) : Prop :=
  List.Forall₂ (fun p q => q.1 = p.1 ∧ expand settings p.2 drawn = .ok q.2) b forests

/-- What there is to be told of a result. -/
def told : Except Shorthand.Failure (List Node) → Option Diagnostic
  | .error (.rejected r) => some r.diagnostic
  | _ => none

/-- What there is to be told of the expressions, in the order of the batch. -/
def failures (settings : Settings) (drawn : Nat) (b : Batch) : List Diagnostic :=
  b.filterMap fun p => told (expand settings p.2 drawn)

/-- What is warned of in a batch: the expressions with stray parentheses, in the order of the batch,
unless grouping is strict, so that they are rejected. -/
def strayWarnings (settings : Settings) (b : Batch) : List Warning :=
  b.flatMap fun p =>
    if settings.strictGrouping ∨ (Text.normalize p.2).Matched then [] else [⟨Text.normalize p.2⟩]

/-- The text of some data, in a format that renders data. -/
def rendering (d : Data) : BatchFormat → Option Text
  | .json => some (d.toJson false ++ "\n")
  | .yaml => some d.toYaml
  | .html => none

/-- A text is printed as it is, or it becomes the content of a file that can be written. -/
structure Delivered (s : Store) (out : Option Text) (t : Text) (o : Outcome) : Prop where
  printed : out = none ∨ out = some [] → o.exitCode = some 0 ∧ o.output = t ∧ o.store = s
  written : ∃ octets, Text.toUtf8 t = .ok octets ∧ ∀ path s', out = some path → path ≠ [] →
    s.write (Path.ofText path) octets = .ok s' →
      o.exitCode = some 0 ∧ o.store = s' ∧ s'.read (Path.ofText path) = .ok octets

/-- Nothing comes of a command but what it warns of and, after what it logs, a line for each
diagnostic. -/
structure Refused (s : Store) (ds : List Diagnostic) (o : Outcome) : Prop where
  exitCode : o.exitCode = some 2
  output : o.output = []
  store : o.store = s
  errors : ∃ sorted : List Diagnostic, sorted.Perm ds ∧ sorted.Pairwise Diagnostic.Before
    ∧ Text.lines (o.errors false) = sorted.map Diagnostic.render
    ∧ ∀ verbose, o.errors verbose = (if verbose then o.steps.flatMap Step.line else []) ++
      Text.onLines (sorted.map Diagnostic.render)

/-- What becomes of a batch whose expressions all expand, and of one with a rejection. -/
structure AllOrNothing (s : Store) (b : Batch) (settings : Settings) (f : BatchFormat)
    (out : Option Text) (drawn : Nat) (o : Outcome) : Prop where
  names : (names b).Nodup
  warnings : o.warnings = strayWarnings settings b
  all : (f = .json → settings.defaultTag.HalfFree) →
    (∀ p ∈ b, ∃ ns, expand settings p.2 drawn = .ok ns) →
    ∃ forests, Expands settings drawn b forests ∧ ∀ t ∈ rendering
      (.record (forests.map fun q => (q.1, .list (Data.ofNodes q.2)))) f, Delivered s out t o
  nothing : (∃ p ∈ b, ∃ r, expand settings p.2 drawn = .error (.rejected r)) →
    Refused s (failures settings drawn b) o

section

variable {s : Store} {b : Batch} {settings : Settings} {f : BatchFormat} {out : Option Text}
  {drawn : Nat} {forests : List (Text × List Node)}

/-! ### The runs of a batch -/

def runs (settings : Settings) (b : Batch) : List (Text × Run (List Node)) :=
  b.map fun (name, e) => (name, run settings e)

theorem exists_expands : ∀ {b : Batch}, (∀ p ∈ b, ∃ ns, expand settings p.2 drawn = .ok ns) →
    ∃ forests, Expands settings drawn b forests
  | [], _ => ⟨[], .nil⟩
  | (name, e) :: b, h => by
    obtain ⟨⟨ns, hns⟩, hb⟩ := List.forall_mem_cons.1 h
    obtain ⟨forests, hforests⟩ := exists_expands hb
    exact ⟨(name, ns) :: forests, .cons ⟨rfl, hns⟩ hforests⟩

theorem result_run (hs : settings.Valid) (e : Text) (drawn : Nat) :
    (run settings e).result = expand settings e drawn :=
  (expand_eq hs.base e 0).trans (expand_eq hs.base e drawn).symm

theorem expanded_runs (hs : settings.Valid) (h : Expands settings drawn b forests) :
    expanded (runs settings b) = forests := by
  induction h with
  | nil => rfl
  | @cons p q b forests hpq _ ih =>
    obtain ⟨hname, hnodes⟩ := hpq
    unfold expanded runs at ih ⊢
    rw [List.map_cons, List.filterMap_cons, ih]
    simp only [result_run hs p.2 drawn, hnodes]
    rw [← hname]

theorem rejections_runs (hs : settings.Valid) (b : Batch) (drawn : Nat) :
    Command.rejections (runs settings b) = failures settings drawn b := by
  unfold Command.rejections runs failures
  rw [List.filterMap_map]
  exact List.filterMap_congr fun p _ => congrArg told (result_run hs p.2 drawn)

theorem warnings_runs (hs : settings.Valid) (b : Batch) :
    ((runs settings b).flatMap fun p => p.2.warnings) = strayWarnings settings b := by
  unfold runs strayWarnings
  rw [List.flatMap_map]
  exact congrArg b.flatMap (funext fun p => warnings_run hs.base p.2 0)

/-- With settings that are loaded, an expression can only be rejected. -/
theorem interruption?_runs (hs : settings.Valid) (b : Batch) :
    interruption? (runs settings b) = none := by
  refine List.findSome?_eq_none_iff.2 fun p hp => ?_
  obtain ⟨⟨name, e⟩, -, rfl⟩ := List.mem_map.1 hp
  rcases expand_of_safe hs.base e 0 with ⟨ns, hns, -⟩ | ⟨r, hr, -⟩
  · simp only [result_run hs e 0, hns]
  · simp only [result_run hs e 0, hr]

theorem Expands.failures_eq_nil (h : Expands settings drawn b forests) :
    failures settings drawn b = [] := by
  refine List.filterMap_eq_nil_iff.2 fun p hp => ?_
  obtain ⟨q, -, -, hq⟩ := exists_of_mem_forall₂ h hp
  exact congrArg told hq

/-! ### What is rendered -/

theorem halfFree_batchData : ∀ {forests : List (Text × List Node)},
    (∀ q ∈ forests, q.1.HalfFree ∧ ∀ n ∈ q.2, n.Everywhere Node.HalfFree) →
    (batchData forests).HalfFree
  | [], _ => trivial
  | _ :: _, h =>
    have ⟨⟨hname, hnodes⟩, hforests⟩ := List.forall_mem_cons.1 h
    ⟨hname, itemsHalfFree_ofNodes hnodes, halfFree_batchData hforests⟩

theorem Expands.halfFree (h : Expands settings drawn b forests)
    (hb : ∀ p ∈ b, p.1.HalfFree ∧ p.2.HalfFree) (htag : settings.defaultTag.HalfFree) :
    (batchData forests).HalfFree := by
  refine halfFree_batchData fun q hq => ?_
  obtain ⟨p, hp, hname, hnodes⟩ := exists_of_mem_forall₂ (List.Forall₂.flip (R := flip _) h) hq
  exact ⟨hname ▸ (hb p hp).1, halfFree_of_expand hnodes htag (hb p hp).2⟩

/-- YAML escapes what JSON keeps. -/
theorem portable_rendering {d : Data} {t : Text} (ht : t ∈ rendering d f)
    (hd : f = .json → d.HalfFree) : t.Portable := by
  cases f with
  | json =>
    cases ht
    exact (hd rfl).portable_toJson.append (by decide)
  | yaml =>
    cases ht
    exact d.portable_toYaml
  | html => cases ht

theorem showBatch_eq_ok {t : Text} (ht : t ∈ rendering (batchData forests) f) :
    showBatch forests f = .ok t := by
  cases f <;> cases ht <;> rfl

/-! ### How a batch ends -/

/-- If all expressions expand, their rendering is delivered, unless it has an unclosed name. -/
theorem endBatch_of_expands (hs : settings.Valid) (h : Expands settings drawn b forests) :
    endBatch s (runs settings b) f out = match showBatch forests f with
      | .error n => (.interrupted (.name n), s)
      | .ok t => deliver s b.length out t := by
  have hlength : (runs settings b).length = b.length := List.length_map ..
  unfold endBatch
  rw [interruption?_runs hs, rejections_runs hs b drawn, h.failures_eq_nil, expanded_runs hs h]
  rcases showBatch forests f with n | t <;> simp only [hlength]

theorem endBatch_of_rejected (hs : settings.Valid) (h : failures settings drawn b ≠ []) :
    endBatch s (runs settings b) f out = (.reported (failures settings drawn b) 2, s) := by
  unfold endBatch
  rw [interruption?_runs hs, rejections_runs hs b drawn]
  rcases hf : failures settings drawn b with _ | ⟨d, ds⟩
  · exact absurd hf h
  · rfl

theorem delivered_of_deliver {count : Nat} {t : Text} {o : Outcome} (ht : t.Portable)
    (h : (o.ending, o.store) = deliver s count out t) : Delivered s out t o := by
  refine ⟨fun hout => ?_, _, ht.toUtf8, fun path s' hout hne hwrite => ?_⟩
  · have hdeliver : deliver s count out t = (.printed (Text.withoutSequences t) 0, s) := by
      rcases hout with rfl | rfl <;> rfl
    obtain ⟨hending, hstore⟩ := Prod.mk.inj (h.trans hdeliver)
    exact ⟨by rw [Outcome.exitCode, hending], by rw [Outcome.output, hending, ht.withoutSequences],
      hstore⟩
  · subst hout
    obtain ⟨c, r, rfl⟩ := List.exists_cons_of_ne_nil hne
    unfold deliver at h
    simp only [ht.toUtf8, Except.toOption, Option.getD_some, hwrite] at h
    obtain ⟨hending, hstore⟩ := Prod.mk.inj h
    exact ⟨by rw [Outcome.exitCode, hending]; rfl, hstore, Store.read_of_write hwrite⟩

theorem refused_of_reported {o : Outcome} {ds : List Diagnostic} (ho : o.ending = .reported ds 2)
    (hstore : o.store = s) (hp : ∀ d ∈ ds, d.render.Printable) : Refused s ds o := by
  have herrors := Outcome.errors_of_reported ho hp
  refine ⟨by rw [Outcome.exitCode, ho], by rw [Outcome.output, ho], hstore, Diagnostic.sort ds,
    Diagnostic.perm_sort ds, Diagnostic.pairwise_sort ds, ?_, herrors⟩
  rw [herrors false]
  refine Text.lines_onLines fun t ht => ?_
  obtain ⟨d, hd, rfl⟩ := List.mem_map.1 ht
  exact hp d ((Diagnostic.perm_sort ds).mem_iff.1 hd)

theorem exists_of_mem_failures {d : Diagnostic} (hd : d ∈ failures settings drawn b) :
    ∃ r : Rejection, r.diagnostic = d := by
  obtain ⟨p, -, hp⟩ := List.mem_filterMap.1 hd
  unfold told at hp
  split at hp
  · exact ⟨_, Option.some.inj hp⟩
  · cases hp

theorem failures_ne_nil {p : Text × Text} (hp : p ∈ b) {r : Rejection}
    (hr : expand settings p.2 drawn = .error (.rejected r)) : failures settings drawn b ≠ [] :=
  List.ne_nil_of_mem (List.mem_filterMap.2 ⟨p, hp, congrArg told hr⟩)

theorem delivered_endBatch (hs : settings.Valid) (hb : ∀ p ∈ b, p.1.HalfFree ∧ p.2.HalfFree)
    (htag : f = .json → settings.defaultTag.HalfFree) (h : Expands settings drawn b forests)
    {t : Text} (ht : t ∈ rendering (batchData forests) f) {o : Outcome}
    (ho : (o.ending, o.store) = endBatch s (runs settings b) f out) : Delivered s out t o :=
  delivered_of_deliver (portable_rendering ht fun hf => h.halfFree hb (htag hf))
    (ho.trans (by rw [endBatch_of_expands hs h, showBatch_eq_ok ht]))

theorem refused_endBatch (hs : settings.Valid) (h : failures settings drawn b ≠ []) {o : Outcome}
    (ho : (o.ending, o.store) = endBatch s (runs settings b) f out) :
    Refused s (failures settings drawn b) o := by
  obtain ⟨hending, hstore⟩ := Prod.mk.inj (ho.trans (endBatch_of_rejected hs h))
  refine refused_of_reported hending hstore fun d hd => ?_
  obtain ⟨r, rfl⟩ := exists_of_mem_failures hd
  exact r.printable_render

theorem ending_runBatch {path format : Text} {settingsPath : Option Text}
    (hf : batchFormats.lookup format = some f) (hb : load s path = .ok b)
    (hs : Settings.load s settingsPath = .ok settings) (out : Option Text) :
    ((runBatch s path format settingsPath out).ending,
      (runBatch s path format settingsPath out).store) = endBatch s (runs settings b) f out := by
  unfold runBatch
  simp only [hf, hb, hs]
  rfl

theorem warnings_runBatch {path format : Text} {settingsPath : Option Text}
    (hf : batchFormats.lookup format = some f) (hb : load s path = .ok b)
    (hs : Settings.load s settingsPath = .ok settings) (out : Option Text) :
    (runBatch s path format settingsPath out).warnings = strayWarnings settings b := by
  rw [← warnings_runs (Settings.valid_load hs) b]
  unfold runBatch
  simp only [hf, hb, hs]
  rfl

end

/-- A batch whose expressions all expand is rendered whole, into a file if one is named. If one of
them is rejected, all rejections are told, and nothing else comes of the batch but the warnings,
which it has in any case. What is drawn for the tokens makes no difference. -/
theorem allOrNothing_runBatch {s : Store} {path format : Text} {settingsPath : Option Text}
    {f : BatchFormat} {b : Batch} {settings : Settings}
    (hf : batchFormats.lookup format = some f) (hb : load s path = .ok b)
    (hs : Settings.load s settingsPath = .ok settings)
    (hfree : ∀ p ∈ b, p.1.HalfFree ∧ p.2.HalfFree) (out : Option Text) (drawn : Nat) :
    AllOrNothing s b settings f out drawn (runBatch s path format settingsPath out) := by
  have hvalid := Settings.valid_load hs
  have ho := ending_runBatch hf hb hs out
  refine ⟨nodup_load hb, warnings_runBatch hf hb hs out, fun htag h => ?_,
    fun ⟨p, hp, r, hr⟩ => ?_⟩
  · obtain ⟨forests, hforests⟩ := exists_expands h
    exact ⟨forests, hforests, fun t ht => delivered_endBatch hvalid hfree htag hforests ht ho⟩
  · exact refused_endBatch hvalid (failures_ne_nil hp hr) ho

/-- The expression that comes later in the file is told of first. -/
def mixedStore : Store where
  entries := [(["f.yaml"], .file
      ("link: a[href]\nhome: (a+b)>c\nend: p\n".toList.map fun c => c.toNat.toUInt8)),
    (["c.yaml"], .file ("strict_grouping: true\n".toList.map fun c => c.toNat.toUInt8))]

def mixedBatch : Batch :=
  [("link", "a[href]"), ("home", "(a+b)>c"), ("end", "p")]

theorem allOrNothing_runBatch_mixed :
    batchFormats.lookup (Text.ofString "json") = some .json
      ∧ load mixedStore "f.yaml" = .ok mixedBatch
      ∧ Settings.load mixedStore (some "c.yaml") = .ok { strictGrouping := true }
      ∧ (∀ p ∈ mixedBatch, p.1.HalfFree ∧ p.2.HalfFree)
      ∧ AllOrNothing mixedStore mixedBatch { strictGrouping := true } .json (some "o.json") 7
        (runBatch mixedStore "f.yaml" "json" (some "c.yaml") (some "o.json")) :=
  have hf : batchFormats.lookup (Text.ofString "json") = some .json := by decide
  have hb : load mixedStore "f.yaml" = .ok mixedBatch := by decide +kernel
  have hs : Settings.load mixedStore (some "c.yaml") = .ok { strictGrouping := true } := by
    decide +kernel
  have hfree : ∀ p ∈ mixedBatch, p.1.HalfFree ∧ p.2.HalfFree := by decide
  ⟨hf, hb, hs, hfree, allOrNothing_runBatch hf hb hs hfree (some "o.json") 7⟩

/-- The default tag is half of a surrogate pair, written as an escape. -/
def halfStore : Store where
  entries := [(["f.txt"], .file (".a\n".toList.map fun c => c.toNat.toUInt8)),
    (["c.yaml"], .file ("default_tag: \"\\ud83d\"\n".toList.map fun c => c.toNat.toUInt8))]

def halfSettings : Settings where
  defaultTag := [.half 0x3d]

/-- The first expression is only warned of, the second one is rejected. -/
def strayStore : Store where
  entries := [(["f.txt"], .file ("p>(q\na[c]\n".toList.map fun c => c.toNat.toUInt8))]

/-- Without the condition on the default tag, a run may be cut short though all expands. The file is
left empty then. And a batch that is refused may be warned of an expression that does expand. -/
theorem runBatch_of_half_and_stray :
    load halfStore "f.txt" = .ok [("1", ".a")] ∧ Text.HalfFree "1" ∧ Text.HalfFree ".a"
      ∧ Settings.load halfStore (some "c.yaml") = .ok halfSettings
      ∧ (expand halfSettings ".a").isOk ∧ (halfStore.write (Path.ofText "o.json") []).isOk
      ∧ (runBatch halfStore "f.txt" "json" (some "c.yaml") (some "o.json")).exitCode = none
      ∧ (runBatch halfStore "f.txt" "json" (some "c.yaml") (some "o.json")).store.read
        (Path.ofText "o.json") = .ok []
      ∧ load strayStore "f.txt" = .ok [("1", "p>(q"), ("2", "a[c]")] ∧ (expand {} "p>(q").isOk
      ∧ (runBatch strayStore "f.txt" "yaml" none none).exitCode = some 2
      ∧ (runBatch strayStore "f.txt" "yaml" none none).warnings = [⟨"p>(q"⟩] := by
  decide +kernel

end Batch

end Shorthand
