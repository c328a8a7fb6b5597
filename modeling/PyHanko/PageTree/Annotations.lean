import PyHanko.PageTree.InsertSpec
import PyHanko.Writer.Annotation

/-!
# Annotations on the pages of a document

`register_annotation(page_ref, annot_ref)` appends `annot_ref` to the array the page's
`/Annots` holds or refers to, and creates that array in the page when `/Annots` is absent or
refers to no object (`get_object` then raises `KeyError`, which the `try` block catches). Any
other `/Annots` makes `annots.append` raise. On a page of a well-formed tree the call keeps the
tree, provided `/Annots` does not refer to one of the tree's `/Kids` arrays
(`registerAnnotation_appends`).
-/

namespace PyHanko

set_option autoImplicit false

open PageTree

/-- The entries of a node the page tree reads. -/
def treeKeys : List String := ["/Type", "/Parent", "/Count", "/Kids"]

/-- Objects that keep every scalar and the tree's `/Kids` arrays, and keep each node's entries
the tree reads, hold the same tree. -/
theorem Realizes.of_entries {objs objs' : Objects} {p : Option Reference} {t : PageTree}
    (h : Realizes objs p t) (hk : objs.KeepsScalars objs')
    (hnodes : ∀ r ∈ t.nodes, ∀ es st, objs.get? r = some (.dictionary es st) →
      ∃ es', objs'.get? r = some (.dictionary es' st) ∧ ∀ key ∈ treeKeys, es'.lookup key = es.lookup key)
    (hkids : ∀ k ∈ t.kidsKeys, objs'.get? k = objs.get? k) : Realizes objs' p t := by
  induction h with
  | @page parent r hn =>
    obtain ⟨es, st, hg, ht, hp⟩ := hn
    obtain ⟨es', hg', hl⟩ := hnodes r (by simp) es st hg
    exact .page ⟨es', st, hg', (ht.of_lookup (hl "/Type" (by simp [treeKeys]))).of_keepsScalars hk,
      (hl "/Parent" (by simp [treeKeys])).trans hp⟩
  | @pages parent r kr kids hn _ ih =>
    obtain ⟨es, st, hg, ht, hp, hc, hK⟩ := hn
    obtain ⟨es', hg', hl⟩ := hnodes r (by simp) es st hg
    refine .pages ⟨es', st, hg', (ht.of_lookup (hl "/Type" (by simp [treeKeys]))).of_keepsScalars hk,
        (hl "/Parent" (by simp [treeKeys])).trans hp,
        (Objects.getItem_of_lookup (hl "/Count" (by simp [treeKeys]))).trans
          (Objects.getItem_of_keepsScalars hk hc rfl),
        (hK.of_lookup (hl "/Kids" (by simp [treeKeys]))).of_agree
          fun k hkr => hkids k (by simp [hkr])⟩
      fun c hc => ih c hc (fun r' hr' => hnodes r' ?_) (fun k hk' => hkids k ?_)
    · simp [PageTree.mem_nodesList hc r' hr']
    · simp [PageTree.mem_kidsKeysList hc k hk']

theorem Realizes.pageNode_of_mem_leaves {objs : Objects} {p : Option Reference} {t : PageTree}
    (h : Realizes objs p t) : ∀ r ∈ leaves t, ∃ q, objs.PageNode q r := by
  induction h with
  | page hn =>
    intro r hr
    rw [leaves_page, List.mem_singleton] at hr
    exact ⟨_, hr ▸ hn⟩
  | pages _ _ ih =>
    intro r hr
    rw [leaves_pages] at hr
    obtain ⟨c, hc, hrc⟩ := mem_leavesList_iff.mp hr
    exact ih c hc r hrc

theorem PdfObject.modifyAt_appendAnnots (es : Entries) (st : Option (List UInt8))
    {items : List PdfObject} (hl : es.lookup "/Annots" = some (.array items)) (x : PdfObject) :
    (PdfObject.dictionary es st).modifyAt ["/Annots"] (·.appendItem x) =
      .dictionary (setEntry es "/Annots" (.array (items ++ [x]))) st := by
  simp [PdfObject.modifyAt, hl, PdfObject.appendItem]

/-- A writer whose objects differ only in arrays outside the tree's `/Kids` arrays and in the
`/Annots` entries of dictionaries holds the same tree. -/
theorem WellFormed.of_annots {w w' : BasePdfFileWriter} {t : PageTree} (hw : WellFormed w t)
    (hroot : w'.root = w.root)
    (h : ∀ x, w'.objects.get? x = w.objects.get? x ∨
      (∃ items items', w.objects.get? x = some (.array items) ∧
        w'.objects.get? x = some (.array items') ∧ x ∉ t.kidsKeys) ∨
      (∃ es st es', w.objects.get? x = some (.dictionary es st) ∧
        w'.objects.get? x = some (.dictionary es' st) ∧
        ∀ k, k ≠ "/Annots" → es'.lookup k = es.lookup k)) :
    WellFormed w' t := by
  -- a dictionary keeps its dictionary, up to `/Annots`
  have hdict : ∀ x es st, w.objects.get? x = some (.dictionary es st) → ∃ es',
      w'.objects.get? x = some (.dictionary es' st) ∧
        ∀ k, k ≠ "/Annots" → es'.lookup k = es.lookup k := by
    intro x es st hx
    rcases h x with hs | ⟨_, _, ha, -⟩ | ⟨es₀, st₀, es', h₀, h', hk⟩
    · exact ⟨es, hs.trans hx, fun _ _ => rfl⟩
    · rw [hx] at ha; cases ha
    · rw [hx] at h₀; cases h₀
      exact ⟨es', h', hk⟩
  -- a scalar, and a `/Kids` array of the tree, stays as it was
  have hkeep : ∀ x v, w.objects.get? x = some v → (v.isScalar ∨ x ∈ t.kidsKeys) →
      w'.objects.get? x = some v := by
    intro x v hx hv
    rcases h x with hs | ⟨_, _, ha, -, hk⟩ | ⟨_, _, _, h₀, -, -⟩
    · exact hs.trans hx
    · rw [hx] at ha; cases ha
      rcases hv with hv | hv
      · cases hv
      · exact absurd hv hk
    · rw [hx] at h₀; cases h₀
      rcases hv with hv | hv
      · cases hv
      · obtain ⟨_, hk⟩ := hw.realizes.get_kidsKey x hv
        rw [hx] at hk; cases hk
  have htree : ∀ key ∈ treeKeys, key ≠ "/Annots" := by decide
  obtain ⟨ces, cst, hcat, hpages⟩ := hw.catalog
  obtain ⟨ces', hcat', hk⟩ := hdict _ _ _ hcat
  refine ⟨⟨ces', cst, hroot ▸ hcat', (hk _ (by decide)).trans hpages⟩, hw.root,
    hw.realizes.of_entries (fun x v hx hv => hkeep x v hx (.inl hv))
      (fun r _ es st hr => ?_) (fun k hk' => ?_), hw.nodup⟩
  · obtain ⟨es', hr', hk⟩ := hdict r es st hr
    exact ⟨es', hr', fun key hkey => hk key (htree key hkey)⟩
  · obtain ⟨_, hg⟩ := hw.realizes.get_kidsKey k hk'
    rw [hg]
    exact hkeep k _ hg (.inr hk')

/-- What a returning `register_annotation(page, annot)` leaves: the page's annotations (none
counting as empty) with `annot` appended, the same tree, and no object changed but the page and
the array its `/Annots` refers to. -/
structure AppendsAnnot (w : BasePdfFileWriter) (t : PageTree) (page : Reference)
    (annotRef : PdfObject) (r : Except PdfError Unit × BasePdfFileWriter) : Prop where
  ok : r.1 = .ok ()
  annots : r.2.objects.annotsOf page = some ((w.objects.annotsOf page).getD [] ++ [annotRef])
  tree : WellFormed r.2 t
  frame : ∀ x, x ≠ page → (∀ a, w.objects.annotsEntry page = some (.indirect a) → x ≠ a) →
    r.2.objects.get? x = w.objects.get? x

/-- The annotations a page holds itself, read off its `/Annots` entry: none for no entry, the
items of an array; `none` for an entry of any other kind, a reference in particular. -/
def annotsHeld : Option PdfObject → Option (List PdfObject)
  | none => some []
  | some (.array items) => some items
  | some _ => none

theorem annotsOf_getD_of_annotsHeld {objs : Objects} {page : Reference} {items : List PdfObject}
    (h : annotsHeld (objs.annotsEntry page) = some items) : (objs.annotsOf page).getD [] = items := by
  unfold Objects.annotsOf
  cases he : objs.annotsEntry page with
  | none => simp_all [annotsHeld]
  | some v => cases v <;> simp_all [annotsHeld]

section Cases

variable {w : BasePdfFileWriter} {t : PageTree} {page : Reference} {es : Entries}
  {st : Option (List UInt8)}

/-- A returning call that set the page's own `/Annots` to its annotations with `annot` appended,
and changed no other object, appends the annotation; the page then holds the array. -/
theorem appendsAnnot_of_pageLocal (hw : WellFormed w t)
    (hg : w.objects.get? page = some (.dictionary es st)) {annotRef : PdfObject} {O : Objects}
    {u : List PdfObject} {es' : Entries} (hg' : O.get? page = some (.dictionary es' st))
    (hann : es'.lookup "/Annots" =
      some (.array ((w.objects.annotsOf page).getD [] ++ [annotRef])))
    (hk : ∀ k, k ≠ "/Annots" → es'.lookup k = es.lookup k)
    (hothers : ∀ x, x ≠ page → O.get? x = w.objects.get? x) :
    AppendsAnnot w t page annotRef (.ok (), { w with objects := O, updated := u }) ∧
      O.annotsEntry page = some (.array ((w.objects.annotsOf page).getD [] ++ [annotRef])) := by
  have hentry : O.annotsEntry page =
      some (.array ((w.objects.annotsOf page).getD [] ++ [annotRef])) := by
    simp [Objects.annotsEntry, hg', hann]
  refine ⟨⟨rfl, by simp [Objects.annotsOf, hentry], hw.of_annots rfl fun x => ?_,
    fun x hx _ => hothers x hx⟩, hentry⟩
  by_cases hx : x = page
  · subst hx
    exact .inr (.inr ⟨es, st, es', hg, hg', hk⟩)
  · exact .inl (hothers x hx)

theorem appendsAnnot_new (hw : WellFormed w t) (hg : w.objects.get? page = some (.dictionary es st))
    (hn : es.lookup "/Annots" = none ∨
      ∃ a, es.lookup "/Annots" = some (.indirect a) ∧ w.objects.get? a = none)
    (annotRef : PdfObject) :
    AppendsAnnot w t page annotRef (w.registerAnnotation page annotRef) ∧
      (w.registerAnnotation page annotRef).2.objects.annotsEntry page =
        some (.array ((w.objects.annotsOf page).getD [] ++ [annotRef])) := by
  have hof : w.objects.annotsOf page = none := by
    rcases hn with hl | ⟨a, hl, ha⟩
    · simp [Objects.annotsOf, Objects.annotsEntry, hg, hl]
    · simp [Objects.annotsOf, Objects.annotsEntry, hg, hl, ha]
  rw [BasePdfFileWriter.registerAnnotation_new hg hn]
  have hg' : ((w.objects.modify page (·.setItem "/Annots" (.array []))).modify page
      (·.modifyAt ["/Annots"] (·.appendItem annotRef))).get? page =
      some (.dictionary (setEntry (setEntry es "/Annots" (.array [])) "/Annots"
        (.array ([] ++ [annotRef]))) st) := by
    rw [PyDict.get?_modify_self, PyDict.get?_modify_self, hg]
    exact congrArg some (PdfObject.modifyAt_appendAnnots _ _ (lookup_setEntry_self _ _ _) _)
  exact appendsAnnot_of_pageLocal hw hg hg' (by rw [hof]; exact lookup_setEntry_self _ _ _)
    (fun k hk => by rw [lookup_setEntry_of_ne _ _ hk, lookup_setEntry_of_ne _ _ hk])
    fun x hx => by rw [PyDict.get?_modify_of_ne _ _ hx, PyDict.get?_modify_of_ne _ _ hx]

theorem appendsAnnot_direct (hw : WellFormed w t)
    (hg : w.objects.get? page = some (.dictionary es st)) {items : List PdfObject}
    (hl : es.lookup "/Annots" = some (.array items)) (annotRef : PdfObject) :
    AppendsAnnot w t page annotRef (w.registerAnnotation page annotRef) ∧
      (w.registerAnnotation page annotRef).2.objects.annotsEntry page =
        some (.array ((w.objects.annotsOf page).getD [] ++ [annotRef])) := by
  have hof : w.objects.annotsOf page = some items := by
    simp [Objects.annotsOf, Objects.annotsEntry, hg, hl]
  rw [BasePdfFileWriter.registerAnnotation_direct hg hl]
  have hg' : (w.objects.modify page (·.modifyAt ["/Annots"] (·.appendItem annotRef))).get? page =
      some (.dictionary (setEntry es "/Annots" (.array (items ++ [annotRef]))) st) := by
    rw [PyDict.get?_modify_self, hg]
    exact congrArg some (PdfObject.modifyAt_appendAnnots _ _ hl _)
  exact appendsAnnot_of_pageLocal hw hg hg' (by rw [hof]; exact lookup_setEntry_self _ _ _)
    (fun k hk => lookup_setEntry_of_ne _ _ hk) fun x hx => PyDict.get?_modify_of_ne _ _ hx

theorem appendsAnnot_of_held (hw : WellFormed w t)
    (hg : w.objects.get? page = some (.dictionary es st)) {items : List PdfObject}
    (hheld : annotsHeld (w.objects.annotsEntry page) = some items) (annotRef : PdfObject) :
    AppendsAnnot w t page annotRef (w.registerAnnotation page annotRef) ∧
      (w.registerAnnotation page annotRef).2.objects.annotsEntry page =
        some (.array (items ++ [annotRef])) := by
  rw [← annotsOf_getD_of_annotsHeld hheld]
  simp only [Objects.annotsEntry, hg] at hheld
  cases hl : es.lookup "/Annots" with
  | none => exact appendsAnnot_new hw hg (.inl hl) annotRef
  | some v =>
    rw [hl] at hheld
    cases v
    case array => exact appendsAnnot_direct hw hg hl annotRef
    all_goals cases hheld

theorem appendsAnnot_indirect (hw : WellFormed w t)
    (hg : w.objects.get? page = some (.dictionary es st)) {a : Reference}
    (hl : es.lookup "/Annots" = some (.indirect a)) {items : List PdfObject}
    (ha : w.objects.get? a = some (.array items)) (hkids : a ∉ t.kidsKeys)
    (annotRef : PdfObject) :
    AppendsAnnot w t page annotRef (w.registerAnnotation page annotRef) := by
  have hne : page ≠ a := fun h => by rw [h, ha] at hg; cases hg
  have hentry : w.objects.annotsEntry page = some (.indirect a) := by
    simp [Objects.annotsEntry, hg, hl]
  rw [BasePdfFileWriter.registerAnnotation_indirect hg hl ha]
  have hothers : ∀ x, x ≠ a → (w.objects.modify a (·.appendItem annotRef)).get? x =
      w.objects.get? x := fun x hx => PyDict.get?_modify_of_ne _ _ hx
  have ha' : (w.objects.modify a (·.appendItem annotRef)).get? a =
      some (.array (items ++ [annotRef])) := by
    simp [ha, PdfObject.appendItem]
  refine ⟨rfl, ?_, hw.of_annots rfl fun x => ?_, fun x _ hx => hothers x (hx a hentry)⟩
  · simp only [Objects.annotsOf, Objects.annotsEntry, hothers page hne, hg, hl, ha', ha,
      Option.getD_some]
  · by_cases hx : x = a
    · subst hx
      exact .inr (.inl ⟨items, _, ha, ha', hkids⟩)
    · exact .inl (hothers x hx)

end Cases

/-- For every writer holding a well-formed page tree and every page of it whose `/Annots` does
not refer to one of the tree's `/Kids` arrays: where `/Annots` holds or refers to an array, is
absent, or refers to no object, `register_annotation(page, annot)` returns, the page's
annotations become the old ones (none when there were none) with `annot` appended, the writer
holds the same tree, and no object but the page and the array its `/Annots` refers to changes;
for any other `/Annots` the call raises and changes no object. -/
theorem registerAnnotation_appends {w : BasePdfFileWriter} {t : PageTree} (hw : WellFormed w t)
    {page : Reference} (hpage : page ∈ leaves t) (annotRef : PdfObject)
    (hsafe : ∀ a, w.objects.annotsEntry page = some (.indirect a) → a ∉ t.kidsKeys) :
    (w.objects.annotsWritable page = true →
      AppendsAnnot w t page annotRef (w.registerAnnotation page annotRef)) ∧
    (w.objects.annotsWritable page = false →
      (∃ e, (w.registerAnnotation page annotRef).1 = .error e) ∧
      (w.registerAnnotation page annotRef).2.objects = w.objects) := by
  obtain ⟨q, es, st, hg, -, -⟩ := hw.realizes.pageNode_of_mem_leaves page hpage
  refine ⟨fun hwr => ?_, fun hno => BasePdfFileWriter.registerAnnotation_unwritable hg hno annotRef⟩
  simp only [Objects.annotsWritable, Objects.annotsEntry, hg] at hwr hsafe
  cases hl : es.lookup "/Annots" with
  | none => exact (appendsAnnot_new hw hg (.inl hl) annotRef).1
  | some v =>
    rw [hl] at hwr hsafe
    cases v
    case array => exact (appendsAnnot_direct hw hg hl annotRef).1
    case indirect a =>
      cases ha : w.objects.get? a with
      | none => exact (appendsAnnot_new hw hg (.inr ⟨a, hl, ha⟩) annotRef).1
      | some o =>
        cases o
        case array => exact appendsAnnot_indirect hw hg hl ha (hsafe a rfl) annotRef
        all_goals simp [ha] at hwr
    all_goals simp at hwr

/-- The page of `onePageWriter`, without `/Annots`, receives annotation 9. -/
theorem registerAnnotation_appends_onePage :
    WellFormed onePageWriter onePageTree ∧ (⟨0, 4⟩ : Reference) ∈ leaves onePageTree ∧
    (∀ a, onePageWriter.objects.annotsEntry ⟨0, 4⟩ = some (.indirect a) →
      a ∉ onePageTree.kidsKeys) ∧
    (onePageWriter.objects.annotsWritable ⟨0, 4⟩ = true →
      AppendsAnnot onePageWriter onePageTree ⟨0, 4⟩ (.indirect ⟨0, 9⟩)
        (onePageWriter.registerAnnotation ⟨0, 4⟩ (.indirect ⟨0, 9⟩))) ∧
    (onePageWriter.objects.annotsWritable ⟨0, 4⟩ = false →
      (∃ e, (onePageWriter.registerAnnotation ⟨0, 4⟩ (.indirect ⟨0, 9⟩)).1 = .error e) ∧
      (onePageWriter.registerAnnotation ⟨0, 4⟩ (.indirect ⟨0, 9⟩)).2.objects =
        onePageWriter.objects) := by
  have hnone : onePageWriter.objects.annotsEntry ⟨0, 4⟩ = none := rfl
  have hsafe : ∀ a, onePageWriter.objects.annotsEntry ⟨0, 4⟩ = some (.indirect a) →
      a ∉ onePageTree.kidsKeys := fun a h => by rw [hnone] at h; cases h
  exact ⟨wellFormed_onePage, by decide, hsafe,
    registerAnnotation_appends wellFormed_onePage (by decide) (.indirect ⟨0, 9⟩) hsafe⟩

end PyHanko
