import PyHanko.Writer.Run
import PyHanko.PageTree.Annotations

/-!
# The document a program builds

A program builds a document by calls of `add_object`, `insert_page` and, on a page it looked up,
`register_annotation`. Seen from outside, the page tree is a list of pages, each with its
annotations: `insert_page(new_page, after)` puts the new page after the first `after + 1` pages,
`find_page_for_modification(i)` returns the `i`-th page, and `register_annotation` appends to
that page's annotations. `DocState` is that list with `_lastobj_id`, `DocState.call` what a call
does to it, and `Represents` the relation between a writer and the document it holds.

A call on a writer holding a document returns what the list machine returns and leaves a writer
holding the machine's document (`Represents.perform`); so does every run of calls, after which
a page lookup on the writer is an index into the list (`runCalls_refines_docState`). The one
condition is on the pages a program inserts: they hold their `/Type` and their `/Annots`, if
any, themselves, so that the checks of `insert_page` read the page alone and the array a page's
annotations go to is its own.
-/

namespace PyHanko

set_option autoImplicit false

open PageTree

/-! ### The list machine -/

/-- Where `insert_page(…, after)` puts the page among `n` pages: after the first `after + 1`,
`after` defaulting to `n - 1`. -/
def insertIndex (n : Nat) (after : Option Int) : Nat := (after.getD ((n : Int) - 1) + 1).toNat

/-- The list once `x` is inserted as `insert_page(…, after)` inserts a page. -/
def insertAfter {α : Type} (xs : List α) (after : Option Int) (x : α) : List α :=
  xs.take (insertIndex xs.length after) ++ x :: xs.drop (insertIndex xs.length after)

/-- Whether `insert_page` accepts `after` for `n` pages: absent, or in `-1 … n-1`. -/
def afterInRange (n : Nat) : Option Int → Bool
  | none => true
  | some a => decide (-1 ≤ a ∧ a < n)

/-- The checks `insert_page` makes on `new_page`, read off the page alone: a dictionary whose
`/Type` is `/Page` and which has no `/Parent`. -/
def pageAccepted : PdfObject → Bool
  | .dictionary es _ =>
    (es.lookup "/Type").bind PdfObject.strValue? == some "/Page" && (es.lookup "/Parent").isNone
  | _ => false

/-- A page whose `/Type` is not a reference, so that `new_page['/Type']` reads no other
object. -/
def typeDirect : PdfObject → Bool
  | .dictionary es _ =>
    match es.lookup "/Type" with
    | some (.indirect _) => false
    | _ => true
  | _ => true

/-- The page's own `/Annots` entry. -/
def PdfObject.annotsEntry : PdfObject → Option PdfObject
  | .dictionary es _ => es.lookup "/Annots"
  | _ => none

/-- A call a program makes to build a document. `annotate pageIx annotRef` is
`page_ref, _ = find_page_for_modification(page_ix)` followed by
`register_annotation(page_ref, annot_ref)`. -/
inductive WriterCall where
  | addObject (obj : PdfObject)
  | insertPage (newPage : PdfObject) (after : Option Int)
  | annotate (pageIx : Int) (annotRef : PdfObject)

/-- The page of the call reads its `/Type` directly and holds its annotations itself. -/
def WriterCall.pageDirect : WriterCall → Bool
  | .insertPage newPage _ => typeDirect newPage && (annotsHeld newPage.annotsEntry).isSome
  | _ => true

/-- A page of the document: its reference and its annotations. -/
structure DocPage where
  ref : Reference
  annots : List PdfObject
  deriving Repr

/-- The document as a program sees it: its pages in order, and `_lastobj_id`. -/
structure DocState where
  pages : List DocPage
  lastobjId : Nat
  deriving Repr

namespace DocState

/-- The page at index `i`, for `0 ≤ i < len(pages)`. -/
def pageAt (d : DocState) (i : Int) : Option DocPage :=
  if 0 ≤ i then d.pages[i.toNat]? else none

/-- A call on the list machine: the reference it returns (`none` where the call raises), and
the document afterwards. -/
def call (d : DocState) : WriterCall → Option Reference × DocState
  | .addObject _ => (some ⟨0, d.lastobjId + 1⟩, { d with lastobjId := d.lastobjId + 1 })
  | .insertPage newPage after =>
    if pageAccepted newPage && afterInRange d.pages.length after then
      (some ⟨0, d.lastobjId + 1⟩,
        ⟨insertAfter d.pages after ⟨⟨0, d.lastobjId + 1⟩, (annotsHeld newPage.annotsEntry).getD []⟩,
          d.lastobjId + 1⟩)
    else (none, d)
  | .annotate pageIx annotRef =>
    match d.pageAt pageIx with
    | some p =>
      (some p.ref, { d with pages := d.pages.set pageIx.toNat ⟨p.ref, p.annots ++ [annotRef]⟩ })
    | none => (none, d)

/-- Calls one after another. -/
def run : DocState → List WriterCall → List (Option Reference) × DocState
  | d, [] => ([], d)
  | d, c :: cs =>
    let (r, d') := d.call c
    let (rs, d'') := d'.run cs
    (r :: rs, d'')

end DocState

/-! ### The writer -/

/-- `page_ref, _ = find_page_for_modification(page_ix)`, then
`register_annotation(page_ref, annot_ref)`: the page's reference, or what raised. -/
def annotatePage (fuel : Nat) (w : BasePdfFileWriter) (pageIx : Int) (annotRef : PdfObject) :
    Outcome Reference × BasePdfFileWriter :=
  match findPageForModification fuel w pageIx with
  | .ok (.page pageRef _) =>
    match w.registerAnnotation pageRef annotRef with
    | (.ok (), w') => (.ok pageRef, w')
    | (.error e, w') => (.error e, w')
  | .ok (.container ..) => (.error (.valueError "too many values to unpack (expected 2)"), w)
  | .error e => (.error e, w)
  | .outOfFuel => (.outOfFuel, w)

/-- The call on the writer: its outcome, and the writer afterwards. -/
def WriterCall.perform (fuel : Nat) (w : BasePdfFileWriter) :
    WriterCall → Outcome Reference × BasePdfFileWriter
  | .addObject obj => (.ok (w.addObject obj).2, (w.addObject obj).1)
  | .insertPage newPage after => w.insertPage fuel newPage after
  | .annotate pageIx annotRef => annotatePage fuel w pageIx annotRef

/-- Calls one after another on the writer, each ending however it ends (a program that catches
what a call raises goes on with the writer as the call left it). -/
def runCalls (fuel : Nat) : BasePdfFileWriter → List WriterCall →
    List (Outcome Reference) × BasePdfFileWriter
  | w, [] => ([], w)
  | w, c :: cs =>
    let (r, w') := c.perform fuel w
    let (rs, w'') := runCalls fuel w' cs
    (r :: rs, w'')

/-- The writer's outcome is the list machine's result: the same reference, or a raise where the
machine gives `none`. -/
def Agrees : Outcome Reference → Option Reference → Prop
  | .ok r, some r' => r = r'
  | .error _, none => True
  | _, _ => False

/-- The writer holds the document `d`: a well-formed page tree of at most `fuel` levels whose
leaves are the pages of `d`, each holding its annotations itself, the allocator's invariant, and
`_lastobj_id` as in `d`. -/
structure Represents (start fuel : Nat) (w : BasePdfFileWriter) (d : DocState) : Prop where
  tree : ∃ t, WellFormed w t ∧ leaves t = d.pages.map DocPage.ref ∧ t.depth ≤ fuel
  annots : ∀ p ∈ d.pages, annotsHeld (w.objects.annotsEntry p.ref) = some p.annots
  alloc : AllocInv start w
  lastobjId : w.lastobjId = d.lastobjId

/-! ### The list functions -/

theorem map_insertAfter {α β : Type} (f : α → β) (xs : List α) (after : Option Int) (x : α) :
    (insertAfter xs after x).map f = insertAfter (xs.map f) after (f x) := by
  simp [insertAfter, List.map_take, List.map_drop]

theorem mem_insertAfter {α : Type} {xs : List α} {after : Option Int} {x y : α} :
    y ∈ insertAfter xs after x ↔ y = x ∨ y ∈ xs := by
  rw [insertAfter, List.perm_middle.mem_iff, List.mem_cons, List.take_append_drop]

theorem map_set_of_getElem? {α β : Type} (f : α → β) {xs : List α} {i : Nat} {p x : α}
    (hp : xs[i]? = some p) (hx : f x = f p) : (xs.set i x).map f = xs.map f := by
  apply List.ext_getElem?
  intro j
  simp only [List.getElem?_map, List.getElem?_set]
  by_cases hij : i = j
  · subst hij
    rw [if_pos rfl, if_pos (List.getElem?_eq_some_iff.mp hp).1, hp]
    exact congrArg some hx
  · rw [if_neg hij]

namespace DocState

theorem pageAt_eq_some_iff (d : DocState) (i : Int) (p : DocPage) :
    d.pageAt i = some p ↔ 0 ≤ i ∧ d.pages[i.toNat]? = some p := by
  unfold pageAt
  split <;> simp_all

theorem pageAt_eq_none_iff (d : DocState) (i : Int) :
    d.pageAt i = none ↔ ¬ (0 ≤ i ∧ i < d.pages.length) := by
  unfold pageAt
  split
  · rw [List.getElem?_eq_none_iff]; omega
  · simp_all

end DocState

/-! ### The checks, read off the page -/

theorem typeIs_iff_of_typeDirect {objs : Objects} {es : Entries} {st : Option (List UInt8)}
    (h : typeDirect (.dictionary es st) = true) :
    objs.TypeIs (.dictionary es st) "/Page" ↔
      (es.lookup "/Type").bind PdfObject.strValue? = some "/Page" := by
  simp only [typeDirect] at h
  simp only [Objects.TypeIs, Objects.getItem]
  cases hl : es.lookup "/Type" with
  | none => simp
  | some v =>
    rw [hl] at h
    cases v <;> simp_all [Objects.resolve]

theorem pageAccepted_iff {objs : Objects} {es : Entries} {st : Option (List UInt8)}
    (h : typeDirect (.dictionary es st) = true) :
    pageAccepted (.dictionary es st) = true ↔
      objs.TypeIs (.dictionary es st) "/Page" ∧ es.lookup "/Parent" = none := by
  rw [typeIs_iff_of_typeDirect h]
  simp [pageAccepted]

theorem afterInRange_iff (n : Nat) (after : Option Int) :
    afterInRange n after = true ↔ ∀ a, after = some a → -1 ≤ a ∧ a < n := by
  cases after <;> simp [afterInRange]

/-! ### Annotations, read off the objects -/

theorem Objects.annotsEntry_of_get? {objs : Objects} {r : Reference} {o : PdfObject}
    (h : objs.get? r = some o) : objs.annotsEntry r = o.annotsEntry := by
  cases o <;> simp [Objects.annotsEntry, PdfObject.annotsEntry, h]

theorem PdfObject.annotsEntry_setItem_parent (o v : PdfObject) :
    (o.setItem "/Parent" v).annotsEntry = o.annotsEntry := by
  cases o <;> simp [PdfObject.setItem, PdfObject.annotsEntry,
    lookup_setEntry_of_ne _ _ (show ("/Annots" : String) ≠ "/Parent" by decide)]

theorem annotsHeld_getD {e : Option PdfObject} (h : (annotsHeld e).isSome = true) :
    annotsHeld e = some ((annotsHeld e).getD []) := by
  cases he : annotsHeld e with
  | none => rw [he] at h; cases h
  | some items => rfl

theorem Realizes.leaves_sublist {objs : Objects} {p : Option Reference} {t : PageTree}
    (h : Realizes objs p t) : (leaves t).Sublist (nodes t) := by
  induction h with
  | page => simp
  | @pages parent r kr kids _ _ ih =>
    rw [leaves_pages, nodes_pages]
    refine List.Sublist.cons r ?_
    clear * - ih
    induction kids with
    | nil => simp
    | cons c cs ihl =>
      rw [leavesList_cons, nodesList_cons]
      exact (ih c (List.mem_cons_self _ _)).append (ihl fun c' hc' => ih c' (List.mem_cons_of_mem _ hc'))

/-! ### Each call -/

theorem depthList_inserted (kids : List PageTree) (i : Nat) (N : Reference) :
    depthList (kids.take i ++ .page N :: kids.drop i) = depthList kids := by
  conv_rhs => rw [← List.take_append_drop i kids]
  simp only [depthList_append, depthList, depth_page, Nat.zero_max]

theorem insertPage_of_insertPlan_error {w : BasePdfFileWriter} {fuel : Nat} {newPage : PdfObject}
    {after : Option Int} {e : PdfError} (h : w.insertPlan fuel newPage after = .error e) :
    w.insertPage fuel newPage after = (.error e, w) := by
  simp [BasePdfFileWriter.insertPage, h]

theorem AllocInv.get?_addObject {start : Nat} {w : BasePdfFileWriter} (h : AllocInv start w)
    (obj : PdfObject) {k : Reference} {v : PdfObject} (hk : w.objects.get? k = some v) :
    (w.addObject obj).1.objects.get? k = some v := by
  have hne : k ≠ ⟨0, w.lastobjId + 1⟩ := fun he => h.next_fresh (he ▸ PyDict.mem_keys_of_get? hk)
  simp only [BasePdfFileWriter.addObject, PyDict.get?_set, if_neg hne, hk]

theorem WellFormed.addObject {start : Nat} {w : BasePdfFileWriter} {t : PageTree}
    (hw : WellFormed w t) (halloc : AllocInv start w) (obj : PdfObject) :
    WellFormed (w.addObject obj).1 t := by
  have hagree : ∀ k, (∃ v, w.objects.get? k = some v) →
      (w.addObject obj).1.objects.get? k = w.objects.get? k := fun k ⟨v, hk⟩ =>
    (halloc.get?_addObject obj hk).trans hk.symm
  obtain ⟨es, st, hcat, hpages⟩ := hw.catalog
  refine ⟨⟨es, st, halloc.get?_addObject obj hcat, hpages⟩, hw.root,
    hw.realizes.frame (fun k v hk _ => halloc.get?_addObject obj hk) (fun r hr => hagree r ?_)
      (fun k hk => hagree k ?_), hw.nodup⟩
  · obtain ⟨es, st, hg⟩ := hw.realizes.get_node r hr
    exact ⟨_, hg⟩
  · obtain ⟨items, hg⟩ := hw.realizes.get_kidsKey k hk
    exact ⟨_, hg⟩

/-- The writer `insert_page` leaves holds the tree with the page inserted where the plan says. -/
theorem WellFormed.inserted {start : Nat} {w w' : BasePdfFileWriter} {t : PageTree}
    (hw : WellFormed w t) (halloc : AllocInv start w) {before : Nat} {ctx : List Frame}
    {c : Reference} {kr : Option Reference} {kids : List PageTree} {i : Nat}
    (hpos : InsertsAt t before ctx c kr kids i) {es : Entries} {st : Option (List UInt8)}
    (htype : w.objects.TypeIs (.dictionary es st) "/Page")
    (he : InsertEffect w.objects w'.objects c (ctx.map Frame.ref) kr i ⟨0, w.lastobjId + 1⟩
      (.dictionary es st)) (hroot : w'.root = w.root) :
    WellFormed w' (plug ctx (.pages c kr (kids.take i ++ .page ⟨0, w.lastobjId + 1⟩ :: kids.drop i))) := by
  obtain ⟨ht, -, -, hempty⟩ := hpos
  have hreal := hw.realizes
  have hnd := hw.nodup
  rw [ht] at hreal hnd
  have hfresh : (⟨0, w.lastobjId + 1⟩ : Reference) ∉ t.nodes := fun hN => by
    obtain ⟨_, _, hg⟩ := hw.realizes.get_node _ hN
    exact halloc.next_fresh (PyDict.mem_keys_of_get? hg)
  have hperm := nodes_inserted_perm ctx c kr kids i ⟨0, w.lastobjId + 1⟩
  rw [← ht] at hperm
  refine ⟨?_, plug_pages_eq ctx c kr _, realizes_inserted hreal hnd hempty htype he,
    hperm.nodup_iff.mpr (List.nodup_cons.mpr ⟨hfresh, hw.nodup⟩)⟩
  -- the catalog still names the root, which keeps its reference
  obtain ⟨ces, cst, hcat, hpages⟩ := hw.catalog
  obtain ⟨ces', hO, hces'⟩ := he.entries _ _ _ hcat
  refine ⟨ces', cst, hroot ▸ hO, (hces' _ (by decide) (by decide)).trans ?_⟩
  rw [hpages, ht]
  exact congrArg (fun r => some (PdfObject.indirect r)) (ref_plug_congr ctx rfl)

namespace Represents

variable {start fuel : Nat} {w : BasePdfFileWriter} {d : DocState}

theorem get_page (h : Represents start fuel w d) {p : DocPage} (hp : p ∈ d.pages) :
    ∃ es st, w.objects.get? p.ref = some (.dictionary es st) := by
  obtain ⟨t, hw, hl, -⟩ := h.tree
  obtain ⟨_, es, st, hg, -⟩ :=
    hw.realizes.pageNode_of_mem_leaves p.ref (hl ▸ List.mem_map_of_mem _ hp)
  exact ⟨es, st, hg⟩

theorem refs_nodup (h : Represents start fuel w d) : (d.pages.map DocPage.ref).Nodup := by
  obtain ⟨t, hw, hl, -⟩ := h.tree
  exact hl ▸ hw.realizes.leaves_sublist.nodup hw.nodup

theorem addObject (h : Represents start fuel w d) (obj : PdfObject) :
    Represents start fuel (w.addObject obj).1 { d with lastobjId := d.lastobjId + 1 } := by
  obtain ⟨t, hw, hl, hd⟩ := h.tree
  refine ⟨⟨t, hw.addObject h.alloc obj, hl, hd⟩, fun p hp => ?_, h.alloc.addObject obj,
    by simp only [BasePdfFileWriter.addObject_lastobjId, h.lastobjId]⟩
  obtain ⟨es, st, hg⟩ := h.get_page hp
  rw [Objects.annotsEntry_of_get? (h.alloc.get?_addObject obj hg), ← Objects.annotsEntry_of_get? hg]
  exact h.annots p hp

/-- A page that passes the checks, with `after` in range: `insert_page` returns the next
reference and the writer holds the document with it inserted, holding its own annotations. -/
theorem insertPage_accepted (h : Represents start fuel w d) {newPage : PdfObject}
    {after : Option Int} (hdir : typeDirect newPage = true)
    (hann : (annotsHeld newPage.annotsEntry).isSome = true) (hacc : pageAccepted newPage = true)
    (hafter : afterInRange d.pages.length after = true) :
    ∃ w', w.insertPage fuel newPage after = (.ok ⟨0, w.lastobjId + 1⟩, w') ∧
      Represents start fuel w' ⟨insertAfter d.pages after
        ⟨⟨0, d.lastobjId + 1⟩, (annotsHeld newPage.annotsEntry).getD []⟩, d.lastobjId + 1⟩ ∧
      ∃ c, w'.objects.get? ⟨0, w.lastobjId + 1⟩ = some (newPage.setItem "/Parent" (.indirect c)) := by
  obtain ⟨t, hw, hl, hd⟩ := h.tree
  cases newPage with
  | dictionary es st =>
    obtain ⟨htype, hparent⟩ := (pageAccepted_iff hdir).mp hacc
    rw [afterInRange_iff, ← List.length_map d.pages DocPage.ref, ← hl] at hafter
    obtain ⟨ctx, c, kr, kids, i, O, hpos, he, hrun⟩ :=
      insertPage_run hw h.alloc hd htype hparent hafter
    refine ⟨_, hrun, ⟨⟨_, hw.inserted h.alloc hpos htype he rfl, ?_, ?_⟩, ?_, ?_, ?_⟩, c, he.page⟩
    · rw [map_insertAfter, leaves_inserted, hpos.2.2.1, ← hpos.1, hl, ← h.lastobjId]
      rfl
    · have hdepth : depth (.pages c kr (kids.take i ++ .page ⟨0, w.lastobjId + 1⟩ :: kids.drop i)) =
          depth (.pages c kr kids) := by simp only [depth_pages, depthList_inserted]
      rw [depth_plug_congr ctx hdepth, ← hpos.1]
      exact hd
    · -- the new page holds its own annotations; every other page keeps its `/Annots`
      intro p hp
      rcases mem_insertAfter.mp hp with rfl | hp
      · show annotsHeld (O.annotsEntry ⟨0, d.lastobjId + 1⟩) = _
        rw [← h.lastobjId, Objects.annotsEntry_of_get? he.page, PdfObject.annotsEntry_setItem_parent]
        exact annotsHeld_getD hann
      · obtain ⟨es', st', hg⟩ := h.get_page hp
        obtain ⟨es'', hO, hk⟩ := he.entries _ _ _ hg
        show annotsHeld (O.annotsEntry p.ref) = _
        rw [Objects.annotsEntry_of_get? hO, ← h.annots p hp, Objects.annotsEntry_of_get? hg]
        simp only [PdfObject.annotsEntry, hk "/Annots" (by decide) (by decide)]
    · have := h.alloc.insertPage fuel (.dictionary es st) after
      rwa [hrun] at this
    · show w.lastobjId + 1 = d.lastobjId + 1
      rw [h.lastobjId]
  | _ => cases hacc

theorem insertPage_rejected (h : Represents start fuel w d) {newPage : PdfObject}
    {after : Option Int} (hdir : typeDirect newPage = true)
    (hrej : (pageAccepted newPage && afterInRange d.pages.length after) = false) :
    ∃ e, w.insertPage fuel newPage after = (.error e, w) := by
  obtain ⟨t, hw, hl, hd⟩ := h.tree
  cases newPage with
  | dictionary es st =>
    by_cases hacc : pageAccepted (.dictionary es st) = true
    · -- the page passes, so `after` is out of range
      obtain ⟨htype, hparent⟩ := (pageAccepted_iff hdir).mp hacc
      rw [hacc, Bool.true_and, ← Bool.not_eq_true, afterInRange_iff,
        ← List.length_map d.pages DocPage.ref, ← hl] at hrej
      obtain ⟨a, rfl, ha⟩ : ∃ a, after = some a ∧ ¬ (-1 ≤ a ∧ a < (leaves t).length) := by
        by_contra hno
        exact hrej fun a ha => not_not.mp fun h' => hno ⟨a, ha, h'⟩
      obtain ⟨e, he⟩ := (locatePlan_spec hw hd a).2 ha
      exact ⟨e, insertPage_of_insertPlan_error (by rw [insertPlan_good_page hw htype hparent]; exact he)⟩
    · have hbad : ¬ w.objects.TypeIs (.dictionary es st) "/Page" ∨
          (es.lookup "/Parent").isSome := by
        rw [pageAccepted_iff hdir, not_and_or] at hacc
        exact hacc.imp id fun hp => Option.ne_none_iff_isSome.mp hp
      obtain ⟨e, he⟩ := insertPlan_bad_page hbad fuel after
      exact ⟨e, insertPage_of_insertPlan_error he⟩
  | _ => exact ⟨.typeError, insertPage_of_insertPlan_error rfl⟩

/-- In range, the lookup reaches the page at the index, with the resources inherited down the
path to it, its own last. -/
theorem findPage_found (h : Represents start fuel w d) {j : Int} (hj : 0 ≤ j) {p : DocPage}
    (hp : d.pages[j.toNat]? = some p) :
    ∃ path, PyHanko.findPageForModification fuel w j =
      .ok (.page p.ref (w.objects.inheritResources .emptyDict (path ++ [p.ref]))) := by
  obtain ⟨t, hw, hl, hd⟩ := h.tree
  have hlt : j.toNat < d.pages.length := (List.getElem?_eq_some_iff.mp hp).1
  obtain ⟨path, c, k, leaf', -, hleaf', ho⟩ :=
    ((walkPageTree_finds hw hd j).1 ⟨hj, by rw [hl, List.length_map]; omega⟩).pathTo
  rw [hl, List.getElem?_map, hp] at hleaf'
  cases hleaf'
  exact ⟨path, ho false⟩

theorem pageCount (h : Represents start fuel w d) :
    ∃ r, (∃ es st, w.objects.get? w.root = some (.dictionary es st) ∧
        es.lookup "/Pages" = some (.indirect r)) ∧
      w.objects.countAt (Loc.top r) = .ok d.pages.length := by
  obtain ⟨t, hw, hl, -⟩ := h.tree
  obtain ⟨kr, kids, ht⟩ := hw.root
  have hn := (Realizes.pages_iff.mp (ht ▸ hw.realizes)).1
  refine ⟨t.ref, hw.catalog, ?_⟩
  rw [hn.countAt, ← List.length_map d.pages DocPage.ref, ← hl, ht, leaves_pages]

theorem findPageForModification (h : Represents start fuel w d) (j : Int) :
    (∀ p, d.pageAt j = some p →
      ∃ rsrc, PyHanko.findPageForModification fuel w j = .ok (.page p.ref rsrc)) ∧
    (d.pageAt j = none →
      PyHanko.findPageForModification fuel w j = .error (.valueError "Page index out of range")) := by
  refine ⟨fun p hp => ?_, fun hj => ?_⟩
  · obtain ⟨hj, hp⟩ := (d.pageAt_eq_some_iff j p).mp hp
    obtain ⟨_, hf⟩ := h.findPage_found hj hp
    exact ⟨_, hf⟩
  · obtain ⟨t, hw, hl, hd⟩ := h.tree
    rw [DocState.pageAt_eq_none_iff, ← List.length_map d.pages DocPage.ref, ← hl] at hj
    exact (walkPageTree_finds hw hd j).2 hj false

/-- A page holding its own `/Resources` is returned with them, whatever the nodes above hold. -/
theorem findPage_own_resources (h : Represents start fuel w d) {j : Int} (hj : 0 ≤ j)
    {p : DocPage} (hp : d.pages[j.toNat]? = some p) {res : PdfObject}
    (hres : w.objects.resourcesOf p.ref = some res) :
    PyHanko.findPageForModification fuel w j = .ok (.page p.ref res) := by
  obtain ⟨path, hf⟩ := h.findPage_found hj hp
  rw [hf, Objects.inheritResources, List.foldl_append]
  simp [hres]

/-- Annotating the page at an index of the document: the page's reference, and the document
with the annotation appended to that page's. -/
theorem annotate_found (h : Represents start fuel w d) {pageIx : Int} {p : DocPage}
    (hp : d.pageAt pageIx = some p) (annotRef : PdfObject) :
    ∃ w', annotatePage fuel w pageIx annotRef = (.ok p.ref, w') ∧
      Represents start fuel w'
        { d with pages := d.pages.set pageIx.toNat ⟨p.ref, p.annots ++ [annotRef]⟩ } := by
  obtain ⟨hj, hp⟩ := (d.pageAt_eq_some_iff pageIx p).mp hp
  have hmem : p ∈ d.pages := List.getElem?_mem hp
  obtain ⟨t, hw, hl, hd⟩ := h.tree
  obtain ⟨es, st, hg⟩ := h.get_page hmem
  -- the page holds its annotations itself, so the call appends to the page alone
  have hheld := h.annots p hmem
  obtain ⟨happ, hentry⟩ := appendsAnnot_of_held hw hg hheld annotRef
  have hnotind : ∀ a, w.objects.annotsEntry p.ref ≠ some (.indirect a) := fun a ha => by
    rw [ha] at hheld
    cases hheld
  obtain ⟨_, hf⟩ := h.findPage_found hj hp
  have hreg : w.registerAnnotation p.ref annotRef =
      (.ok (), (w.registerAnnotation p.ref annotRef).2) := Prod.ext happ.ok rfl
  obtain ⟨objs, u, hw', hk⟩ := BasePdfFileWriter.registerAnnotation_frame w p.ref annotRef
  refine ⟨_, by simp only [annotatePage, hf]; rw [hreg], ⟨t, happ.tree, ?_, hd⟩, fun q hq => ?_, ?_, ?_⟩
  · rw [map_set_of_getElem? DocPage.ref hp (x := ⟨p.ref, p.annots ++ [annotRef]⟩) rfl]
    exact hl
  · -- the page holds the longer array; any other page is another object, and unchanged
    obtain ⟨k, hq⟩ := List.mem_iff_getElem?.mp hq
    rw [List.getElem?_set] at hq
    by_cases hik : pageIx.toNat = k
    · rw [if_pos hik, if_pos (List.getElem?_eq_some_iff.mp hp).1] at hq
      cases hq
      rw [hentry]
      rfl
    · rw [if_neg hik] at hq
      have hne : q.ref ≠ p.ref := fun he => hik <| Eq.symm <| List.getElem?_inj
        (by simpa using (List.getElem?_eq_some_iff.mp hq).1) h.refs_nodup
        (by rw [List.getElem?_map, List.getElem?_map, hq, hp, Option.map_some', Option.map_some', he])
      simp only [Objects.annotsEntry, happ.frame q.ref hne fun a ha => absurd ha (hnotind a)]
      exact h.annots q (List.getElem?_mem hq)
  · rw [hw']
    exact h.alloc.of_keys hk rfl
  · rw [hw']
    exact h.lastobjId

theorem annotate_missing (h : Represents start fuel w d) {pageIx : Int}
    (hp : d.pageAt pageIx = none) (annotRef : PdfObject) :
    annotatePage fuel w pageIx annotRef = (.error (.valueError "Page index out of range"), w) := by
  simp only [annotatePage, (h.findPageForModification pageIx).2 hp]

/-- Each call returns what the list machine returns and keeps the relation. -/
theorem perform (h : Represents start fuel w d) (c : WriterCall) (hc : c.pageDirect = true) :
    Agrees (c.perform fuel w).1 (d.call c).1 ∧
      Represents start fuel (c.perform fuel w).2 (d.call c).2 := by
  cases c with
  | addObject obj =>
    exact ⟨show (⟨0, w.lastobjId + 1⟩ : Reference) = ⟨0, d.lastobjId + 1⟩ by rw [h.lastobjId], h.addObject obj⟩
  | insertPage newPage after =>
    obtain ⟨hdir, hann⟩ := Bool.and_eq_true_iff.mp hc
    simp only [WriterCall.perform, DocState.call]
    cases hok : (pageAccepted newPage && afterInRange d.pages.length after)
    · obtain ⟨e, he⟩ := h.insertPage_rejected hdir hok
      simp only [he, if_false, Bool.false_eq_true]
      exact ⟨trivial, h⟩
    · obtain ⟨hacc, hafter⟩ := Bool.and_eq_true_iff.mp hok
      obtain ⟨w', hw', h', -⟩ := h.insertPage_accepted hdir hann hacc hafter
      simp only [hw', if_true]
      exact ⟨show (⟨0, w.lastobjId + 1⟩ : Reference) = ⟨0, d.lastobjId + 1⟩ by rw [h.lastobjId], h'⟩
  | annotate pageIx annotRef =>
    simp only [WriterCall.perform, DocState.call]
    cases hp : d.pageAt pageIx with
    | none =>
      rw [h.annotate_missing hp]
      exact ⟨trivial, h⟩
    | some p =>
      obtain ⟨w', hw', h'⟩ := h.annotate_found hp annotRef
      rw [hw']
      exact ⟨rfl, h'⟩

theorem runCalls : ∀ {w : BasePdfFileWriter} {d : DocState} (calls : List WriterCall),
    Represents start fuel w d → (∀ c ∈ calls, c.pageDirect = true) →
    List.Forall₂ Agrees (PyHanko.runCalls fuel w calls).1 (d.run calls).1 ∧
      Represents start fuel (PyHanko.runCalls fuel w calls).2 (d.run calls).2
  | _, _, [], h, _ => ⟨.nil, h⟩
  | w, d, c :: cs, h, hcs => by
    obtain ⟨hagree, h'⟩ := h.perform c (hcs c (List.mem_cons_self _ _))
    obtain ⟨hrest, hfin⟩ := runCalls cs h' fun c' hc' => hcs c' (List.mem_cons_of_mem _ hc')
    exact ⟨.cons hagree hrest, hfin⟩

end Represents

/-- `PdfFileWriter()` holds the empty document, its page tree root being object 3. -/
theorem represents_pdfFileWriter (documentId : PdfObject) {fuel : Nat} (hfuel : 1 ≤ fuel) :
    Represents 0 fuel (pdfFileWriter documentId) ⟨[], 3⟩ where
  tree := ⟨.pages ⟨0, 3⟩ none [],
    { catalog := ⟨_, none, rfl, rfl⟩
      root := ⟨none, [], rfl⟩
      realizes := .pages ⟨_, none, rfl, ⟨.name "/Pages", rfl, rfl⟩, rfl, rfl, rfl⟩ nofun
      nodup := by decide },
    rfl, hfuel⟩
  annots := nofun
  alloc := (RunInv.pdfFileWriter documentId).alloc
  lastobjId := rfl

/-- For every writer holding a document and every run of `add_object`, `insert_page` and
page-annotating calls whose inserted pages hold their `/Type` and `/Annots` themselves: each
call returns what the list machine returns (the next reference or the annotated page, or a raise
exactly where the machine rejects the call), the writer afterwards holds the machine's document,
each page holding the machine's annotations for it and the root's `/Count` being the number of
pages, and `find_page_for_modification(j)` on it returns the `j`-th page of the machine's list,
or raises `ValueError('Page index out of range')` for an index outside it. -/
theorem runCalls_refines_docState {start fuel : Nat} {w : BasePdfFileWriter} {d : DocState}
    (h : Represents start fuel w d) (calls : List WriterCall)
    (hcalls : ∀ c ∈ calls, c.pageDirect = true) :
    List.Forall₂ Agrees (runCalls fuel w calls).1 (d.run calls).1 ∧
    Represents start fuel (runCalls fuel w calls).2 (d.run calls).2 ∧
    (∀ p ∈ (d.run calls).2.pages,
      annotsHeld ((runCalls fuel w calls).2.objects.annotsEntry p.ref) = some p.annots) ∧
    (∃ r, (∃ es st, (runCalls fuel w calls).2.objects.get? (runCalls fuel w calls).2.root =
        some (.dictionary es st) ∧ es.lookup "/Pages" = some (.indirect r)) ∧
      (runCalls fuel w calls).2.objects.countAt (Loc.top r) = .ok (d.run calls).2.pages.length) ∧
    ∀ j : Int,
      (∀ p, (d.run calls).2.pageAt j = some p →
        ∃ rsrc, findPageForModification fuel (runCalls fuel w calls).2 j = .ok (.page p.ref rsrc)) ∧
      ((d.run calls).2.pageAt j = none →
        findPageForModification fuel (runCalls fuel w calls).2 j =
          .error (.valueError "Page index out of range")) := by
  obtain ⟨hagree, hfin⟩ := Represents.runCalls calls h hcalls
  exact ⟨hagree, hfin, hfin.annots, hfin.pageCount, hfin.findPageForModification⟩

/-- Two pages inserted into `PdfFileWriter()`, the second before the first, and an annotation
on the second page of the document. -/
def twoPageCalls : List WriterCall :=
  [.insertPage (.dictionary [("/Type", .name "/Page")] none) none,
    .insertPage (.dictionary [("/Type", .name "/Page")] none) (some (-1)),
    .annotate 1 (.indirect ⟨0, 9⟩)]

theorem runCalls_refines_docState_twoPages :
    Represents 0 1 (pdfFileWriter .null) ⟨[], 3⟩ ∧
    (∀ c ∈ twoPageCalls, c.pageDirect = true) ∧
    List.Forall₂ Agrees (runCalls 1 (pdfFileWriter .null) twoPageCalls).1
      (DocState.run ⟨[], 3⟩ twoPageCalls).1 ∧
    Represents 0 1 (runCalls 1 (pdfFileWriter .null) twoPageCalls).2
      (DocState.run ⟨[], 3⟩ twoPageCalls).2 ∧
    (∀ p ∈ (DocState.run ⟨[], 3⟩ twoPageCalls).2.pages,
      annotsHeld ((runCalls 1 (pdfFileWriter .null) twoPageCalls).2.objects.annotsEntry p.ref) =
        some p.annots) ∧
    (∃ r, (∃ es st, (runCalls 1 (pdfFileWriter .null) twoPageCalls).2.objects.get?
          (runCalls 1 (pdfFileWriter .null) twoPageCalls).2.root =
        some (.dictionary es st) ∧ es.lookup "/Pages" = some (.indirect r)) ∧
      (runCalls 1 (pdfFileWriter .null) twoPageCalls).2.objects.countAt (Loc.top r) =
        .ok (DocState.run ⟨[], 3⟩ twoPageCalls).2.pages.length) ∧
    ∀ j : Int,
      (∀ p, (DocState.run ⟨[], 3⟩ twoPageCalls).2.pageAt j = some p →
        ∃ rsrc, findPageForModification 1 (runCalls 1 (pdfFileWriter .null) twoPageCalls).2 j =
          .ok (.page p.ref rsrc)) ∧
      ((DocState.run ⟨[], 3⟩ twoPageCalls).2.pageAt j = none →
        findPageForModification 1 (runCalls 1 (pdfFileWriter .null) twoPageCalls).2 j =
          .error (.valueError "Page index out of range")) :=
  ⟨represents_pdfFileWriter .null le_rfl, by decide,
    runCalls_refines_docState (represents_pdfFileWriter .null le_rfl) twoPageCalls (by decide)⟩

example : (DocState.run ⟨[], 3⟩ twoPageCalls).1 = [some ⟨0, 4⟩, some ⟨0, 5⟩, some ⟨0, 4⟩] ∧
    ((DocState.run ⟨[], 3⟩ twoPageCalls).2.pages.map fun p => (p.ref, p.annots.length)) =
      [(⟨0, 5⟩, 0), (⟨0, 4⟩, 1)] := by decide

end PyHanko
