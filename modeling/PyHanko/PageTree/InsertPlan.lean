import PyHanko.PageTree.WalkSpec
import PyHanko.PageTree.Counts

/-!
# Where `insert_page` puts a page

Before its first mutation `insert_page` checks the page, reads `after` (the last page when it
is `None`), and locates the `/Pages` node and `/Kids` list the page goes to. On a well-formed
tree the checks fail exactly for a page without `/Type /Page`, a page with `/Parent`, or an
index outside `-1 … n-1`; otherwise the plan names a position of the tree with the first
`after + 1` leaves before it.
-/

namespace PyHanko

set_option autoImplicit false

open PageTree

/-- Where `/Kids` of the node `c`, held as `kr`, lives. -/
def kidsLocOf (c : Reference) : Option Reference → Loc
  | some k => Loc.top k
  | none => (Loc.top c).child "/Kids"

/-- A position for a new leaf in `t`: the `i`-th place among the kids of the `/Pages` node `c`,
with the frames `ctx` around `c`, and `before` leaves of `t` before it. -/
def InsertsAt (t : PageTree) (before : Nat) (ctx : List Frame) (c : Reference)
    (kr : Option Reference) (kids : List PageTree) (i : Nat) : Prop :=
  t = plug ctx (.pages c kr kids) ∧ i ≤ kids.length ∧
    (ctxLeft ctx).length + (leavesList (kids.take i)).length = before ∧ (kids = [] → ctx = [])

theorem insertPlan_bad_page {w : BasePdfFileWriter} {es : Entries} {st : Option (List UInt8)}
    (h : ¬ w.objects.TypeIs (.dictionary es st) "/Page" ∨ (es.lookup "/Parent").isSome)
    (fuel : Nat) (after : Option Int) :
    ∃ e, w.insertPlan fuel (.dictionary es st) after = .error e := by
  unfold BasePdfFileWriter.insertPlan
  cases hty : w.objects.getItem (.dictionary es st) "/Type" with
  | error e => exact ⟨e, by simp [hty]⟩
  | ok v =>
    by_cases hv : v.strValue? = some "/Page"
    · have hpar : (es.lookup "/Parent").isSome := by
        rcases h with h | h
        · exact absurd ⟨v, hty, hv⟩ h
        · exact h
      refine ⟨.valueError "/Parent must not be set.", ?_⟩
      simp [hty, hv, PdfObject.hasKey, hpar]
    · exact ⟨.valueError "Not a page object", by simp [hty, hv]⟩

theorem insertPlan_good_page {w : BasePdfFileWriter} {t : PageTree} (hw : WellFormed w t)
    {es : Entries} {st : Option (List UInt8)} (htype : w.objects.TypeIs (.dictionary es st) "/Page")
    (hparent : es.lookup "/Parent" = none) (fuel : Nat) (after : Option Int) :
    w.insertPlan fuel (.dictionary es st) after =
      w.locatePlan fuel (.indirect t.ref) (after.getD ((leaves t).length - 1)) := by
  obtain ⟨v, hty, hv⟩ := htype
  obtain ⟨ces, cst, hcat, hpages⟩ := hw.catalog
  have hroot : w.objects.getObject w.root = .ok (.dictionary ces cst) :=
    Objects.getObject_eq_ok.mpr hcat
  simp only [BasePdfFileWriter.insertPlan, hty, hv, PdfObject.hasKey, hparent, hroot,
    PdfObject.rawGet_dictionary, hpages, Outcome.lift_ok, Outcome.ok_bind, Option.isSome_none,
    ne_eq, not_true_eq_false, if_false, Outcome.pure_def, Bool.false_eq_true]
  cases after with
  | some a => rfl
  | none =>
    obtain ⟨kr, kids, ht⟩ := hw.root
    have hreal := hw.realizes
    rw [ht] at hreal
    obtain ⟨⟨esR, stR, hgR, -, -, hcount, -⟩, -⟩ := Realizes.pages_iff.mp hreal
    have hgetR : w.objects.getObject t.ref = .ok (.dictionary esR stR) :=
      Objects.getObject_eq_ok.mpr hgR
    have hn : (leavesList kids).length = (leaves t).length := by rw [ht]; simp
    rw [hn] at hcount
    simp [Objects.resolve, hgetR, hcount]

theorem kidsPlan_pagesNode {w : BasePdfFileWriter} {q : Option Reference} {c : Reference}
    {kr : Option Reference} {n : Nat} {items : List PdfObject}
    (h : w.objects.PagesNode q c kr n items) (i : Nat) (u : PdfObject) :
    w.kidsPlan (.indirect c) (Loc.top c) i u = .ok ⟨.indirect c, Loc.top c, i, u, kidsLocOf c kr, kr⟩ := by
  obtain ⟨es, st, hg, -, -, -, hk⟩ := h
  have hget : w.objects.getObject c = .ok (.dictionary es st) := Objects.getObject_eq_ok.mpr hg
  cases kr with
  | none =>
    simp only [Objects.KidsAt] at hk
    simp [BasePdfFileWriter.kidsPlan, Objects.resolve, hget, hk, kidsLocOf]
  | some k =>
    obtain ⟨hk, hka⟩ := hk
    have hgk : w.objects.getObject k = .ok (.array items) := Objects.getObject_eq_ok.mpr hka
    simp [BasePdfFileWriter.kidsPlan, Objects.resolve, hget, hk, hgk, kidsLocOf]

theorem pagesNode_of_plug {objs : Objects} {ctx : List Frame} {c : Reference}
    {kr : Option Reference} {kids : List PageTree}
    (h : Realizes objs none (plug ctx (.pages c kr kids))) :
    objs.PagesNode (holeParent none ctx) c kr (leavesList kids).length (kidRefs kids) :=
  (Realizes.pages_iff.mp (Realizes.plug_iff.mp h).2).1

/-- On a well-formed tree, `after` in `-1 … n-1` gives a plan for the position after the first
`after + 1` leaves, and any other `after` fails. -/
theorem locatePlan_spec {w : BasePdfFileWriter} {t : PageTree} (hw : WellFormed w t) {fuel : Nat}
    (hfuel : t.depth ≤ fuel) (a : Int) :
    (-1 ≤ a ∧ a < (leaves t).length → ∃ ctx c kr kids i,
      InsertsAt t (a + 1).toNat ctx c kr kids i ∧
      w.locatePlan fuel (.indirect t.ref) a =
        .ok ⟨.indirect c, Loc.top c, i, .indirect c, kidsLocOf c kr, kr⟩) ∧
    (¬ (-1 ≤ a ∧ a < (leaves t).length) → ∃ e, w.locatePlan fuel (.indirect t.ref) a = .error e) := by
  obtain ⟨hin, hout⟩ := walkPageTree_finds hw hfuel a
  refine ⟨fun ha => ?_, fun ha => ?_⟩
  · by_cases hm : a = -1
    · subst hm
      obtain ⟨kr, kids, ht⟩ := hw.root
      have hreal := hw.realizes
      rw [ht] at hreal
      refine ⟨[], t.ref, kr, kids, 0, ⟨ht, by simp, by simp [ctxLeft], fun _ => rfl⟩, ?_⟩
      simp only [BasePdfFileWriter.locatePlan, if_true, BasePdfFileWriter.rootPagesLoc]
      exact kidsPlan_pagesNode (pagesNode_of_plug (show Realizes _ none (plug [] _) from hreal)) 0 _
    · obtain ⟨ctx, c, kr, kids, k, leaf, hc, hk, hrel, ho⟩ := hin (by omega)
      have hreal := hw.realizes
      rw [hc] at hreal
      obtain ⟨hlt, hget⟩ := List.getElem?_eq_some_iff.mp hk
      refine ⟨ctx, c, kr, kids, k + 1, ⟨hc, hlt, ?_, fun h => by simp [h] at hlt⟩, ?_⟩
      · rw [List.take_succ, hk, Option.toList_some, leavesList_append]
        simp only [leavesList_cons, leaves_page, leavesList_nil, List.length_append,
          List.length_singleton, List.length_nil, List.append_nil]
        omega
      · simp only [BasePdfFileWriter.locatePlan, hm, if_false, findPageContainer, ho true,
          foundLocation, if_true, Outcome.ok_bind]
        exact kidsPlan_pagesNode (pagesNode_of_plug hreal) _ _
  · have hm : a ≠ -1 := by omega
    refine ⟨.valueError "Page index out of range", ?_⟩
    simp only [BasePdfFileWriter.locatePlan, hm, if_false, findPageContainer, hout (by omega) true,
      Outcome.error_bind]

end PyHanko
