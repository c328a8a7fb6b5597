import PyHanko.PageTree.InsertSpec
import PyHanko.Writer.Annotation

/-!
# What `insert_page` and `register_annotation` pass to `mark_update`

An incremental writer writes out again only the objects passed to `mark_update`.
`insert_page` passes the node receiving the page and, when that node holds `/Kids` through a
reference, the array; its `/Count` loop also changes every node above the receiving node, and
none of those is passed (`insertPage_marks`). `register_annotation` passes the page when it
changes the page, but the annotation, not the array it appends to, when `/Annots` is a
reference (`registerAnnotation_indirect`).
-/

namespace PyHanko

set_option autoImplicit false

open PageTree

/-- On a well-formed tree, `insert_page` passes `mark_update` the node `c` receiving the page and
its separate `/Kids` array, and nothing else; every node above `c` has had its `/Count` raised
and is neither. -/
theorem insertPage_marks {start : Nat} {w : BasePdfFileWriter} {t : PageTree} (hw : WellFormed w t)
    (halloc : AllocInv start w) {fuel : Nat} (hfuel : t.depth ≤ fuel) {es : Entries}
    {st : Option (List UInt8)} (htype : w.objects.TypeIs (.dictionary es st) "/Page")
    (hparent : es.lookup "/Parent" = none) {after : Option Int}
    (hafter : ∀ a, after = some a → -1 ≤ a ∧ a < (leaves t).length) :
    ∃ ctx c kr kids i w',
      InsertsAt t (after.getD ((leaves t).length - 1) + 1).toNat ctx c kr kids i ∧
      w.insertPage fuel (.dictionary es st) after = (.ok ⟨0, w.lastobjId + 1⟩, w') ∧
      w'.updated = w.updated ++ .indirect c :: kr.toList.map .indirect ∧
      ∀ f ∈ ctx, (∀ n, w.objects.countAt (Loc.top f.ref) = .ok n →
          w'.objects.countAt (Loc.top f.ref) = .ok (n + 1)) ∧
        PdfObject.indirect f.ref ∉ .indirect c :: kr.toList.map .indirect := by
  obtain ⟨ctx, c, kr, kids, i, O, hpos, he, hrun⟩ :=
    insertPage_run hw halloc hfuel htype hparent hafter
  refine ⟨ctx, c, kr, kids, i, _, hpos, hrun, rfl, fun f hf => ?_⟩
  have hreal := hw.realizes
  have hnd := hw.nodup
  rw [hpos.1] at hreal hnd
  obtain ⟨hctx, hfocus⟩ := Realizes.plug_iff.mp hreal
  have hpn := (Realizes.pages_iff.mp hfocus).1
  have hmem : f.ref ∈ ctx.map Frame.ref := List.mem_map_of_mem _ hf
  obtain ⟨esf, stf, hgf⟩ := (parentChain_of_ctx ctx hpn hctx).get f.ref (List.mem_cons_of_mem _ hmem)
  have hfc : f.ref ≠ c := fun h => (List.nodup_cons.mp (chain_nodup hnd)).1 (h ▸ hmem)
  refine ⟨fun n hn => by rw [he.countAt hgf hfc hn, if_pos hmem], ?_⟩
  simp only [List.mem_cons, PdfObject.indirect.injEq, List.mem_map, Option.mem_toList, not_or]
  refine ⟨hfc, ?_⟩
  -- the `/Kids` array holds an array, the frame a dictionary
  rintro ⟨K, rfl, hK⟩
  obtain ⟨_, _, _, _, _, _, _, hka⟩ := hpn
  cases hK
  rw [hka] at hgf
  cases hgf

/-- A writer whose page tree has two levels: the root `3` over the node `5`, which holds the
page `4`; the page's `/Annots` is the array `6`, and `7` is an annotation. -/
def twoLevelWriter : BasePdfFileWriter :=
  { pdfFileWriter (.array []) with
    objects := ⟨[(⟨0, 1⟩, .dictionary [("/Type", .name "/Catalog"), ("/Pages", .indirect ⟨0, 3⟩)] none),
      (⟨0, 2⟩, .dictionary [("/Producer", .string "pdfstamp")] none),
      (⟨0, 3⟩, .dictionary [("/Type", .name "/Pages"), ("/Count", .number 1),
        ("/Kids", .array [.indirect ⟨0, 5⟩])] none),
      (⟨0, 4⟩, .dictionary [("/Type", .name "/Page"), ("/Parent", .indirect ⟨0, 5⟩),
        ("/Annots", .indirect ⟨0, 6⟩)] none),
      (⟨0, 5⟩, .dictionary [("/Type", .name "/Pages"), ("/Parent", .indirect ⟨0, 3⟩),
        ("/Count", .number 1), ("/Kids", .array [.indirect ⟨0, 4⟩])] none),
      (⟨0, 6⟩, .array []),
      (⟨0, 7⟩, .dictionary [("/Type", .name "/Annot")] none)],
      by decide⟩
    lastobjId := 7 }

/-- The page tree of `twoLevelWriter`. -/
def twoLevelTree : PageTree := .pages ⟨0, 3⟩ none [.pages ⟨0, 5⟩ none [.page ⟨0, 4⟩]]

theorem wellFormed_twoLevel : WellFormed twoLevelWriter twoLevelTree where
  catalog := ⟨[("/Type", .name "/Catalog"), ("/Pages", .indirect ⟨0, 3⟩)], none, rfl, rfl⟩
  root := ⟨none, [.pages ⟨0, 5⟩ none [.page ⟨0, 4⟩]], rfl⟩
  realizes := .pages ⟨[("/Type", .name "/Pages"), ("/Count", .number 1),
      ("/Kids", .array [.indirect ⟨0, 5⟩])], none, rfl, ⟨.name "/Pages", rfl, rfl⟩, rfl, rfl, rfl⟩
    fun c hc => by
      simp only [List.mem_singleton] at hc
      subst hc
      refine .pages ⟨[("/Type", .name "/Pages"), ("/Parent", .indirect ⟨0, 3⟩),
        ("/Count", .number 1), ("/Kids", .array [.indirect ⟨0, 4⟩])], none, rfl,
        ⟨.name "/Pages", rfl, rfl⟩, rfl, rfl, rfl⟩ fun c hc => ?_
      simp only [List.mem_singleton] at hc
      subst hc
      exact .page ⟨[("/Type", .name "/Page"), ("/Parent", .indirect ⟨0, 5⟩),
        ("/Annots", .indirect ⟨0, 6⟩)], none, rfl, ⟨.name "/Page", rfl, rfl⟩, rfl⟩
  nodup := by decide

/-- On the well-formed `twoLevelWriter`, inserting a page after the first raises the root's
`/Count` from 1 to 2 but passes only the node `5` to `mark_update`; registering the annotation
`7` on the page appends it to the array `6` but passes only `7`. -/
theorem markUpdate_misses_changed_objects :
    WellFormed twoLevelWriter twoLevelTree ∧
    (twoLevelWriter.insertPage 2 (.dictionary [("/Type", .name "/Page")] none) (some 0)).1 =
      .ok ⟨0, 8⟩ ∧
    twoLevelWriter.objects.countAt (Loc.top ⟨0, 3⟩) = .ok 1 ∧
    (twoLevelWriter.insertPage 2 (.dictionary [("/Type", .name "/Page")] none)
      (some 0)).2.objects.countAt (Loc.top ⟨0, 3⟩) = .ok 2 ∧
    (twoLevelWriter.insertPage 2 (.dictionary [("/Type", .name "/Page")] none) (some 0)).2.updated =
      [.indirect ⟨0, 5⟩] ∧
    (Prod.fst <| twoLevelWriter.registerAnnotation ⟨0, 4⟩ (.indirect ⟨0, 7⟩)) = .ok () ∧
    twoLevelWriter.objects.get? ⟨0, 6⟩ = some (.array []) ∧
    (Prod.snd <| twoLevelWriter.registerAnnotation ⟨0, 4⟩ (.indirect ⟨0, 7⟩)).objects.get? ⟨0, 6⟩ =
      some (.array [.indirect ⟨0, 7⟩]) ∧
    (Prod.snd <| twoLevelWriter.registerAnnotation ⟨0, 4⟩ (.indirect ⟨0, 7⟩)).updated =
      [.indirect ⟨0, 7⟩] :=
  ⟨wellFormed_twoLevel, rfl, rfl, rfl, rfl, rfl, rfl, rfl, rfl⟩

end PyHanko
