import PyHanko.PageTree.Counts
import PyHanko.PageTree.WalkSpec

/-!
# When the page-tree calls end

`_recurse` calls itself once at most per call, on a `/Pages` kid of the node it is in
(`walkKids_cases`), so the walk ends as soon as the descent through `/Pages` kids from the root
is well founded (`recurse_terminates`), and with more fuel it ends the same way (`recurse_mono`).
The `/Count` loop of `insert_page` follows `/Parent` instead, and ends on any finite chain of
`parent.get('/Parent')` steps (`increaseCounts_ends`). A root that is its own `/Pages` kid makes
`_recurse` nest without end, and one that is its own `/Parent` keeps the loop going for ever
(`recurse_loops`, `increaseCounts_cycle`).

A call with fuel *settles* when some fuel finishes it and every larger fuel gives the same
outcome: that outcome is what the Python call returns or raises.
-/

namespace PyHanko

set_option autoImplicit false

/-- A call with fuel that ends from some fuel on, the same way for every larger fuel. -/
def Settles {α : Type} (f : Nat → Outcome α) : Prop :=
  ∃ n, f n ≠ .outOfFuel ∧ ∀ m, n ≤ m → f m = f n

namespace Settles

variable {α β : Type}

theorem const {r : Outcome α} (hr : r ≠ .outOfFuel) : Settles fun _ => r :=
  ⟨0, hr, fun _ _ => rfl⟩

theorem bind {x : Outcome β} (hx : x ≠ .outOfFuel) {g : β → Nat → Outcome α}
    (hg : ∀ b, x = .ok b → Settles (g b)) : Settles fun n => x >>= fun b => g b n := by
  cases x with
  | ok b =>
    obtain ⟨n, hn, hm⟩ := hg b rfl
    exact ⟨n, hn, hm⟩
  | error e => exact const nofun
  | outOfFuel => exact absurd rfl hx

end Settles

theorem Outcome.lift_ne_outOfFuel {β : Type} (e : Except PdfError β) :
    (monadLift e : Outcome β) ≠ .outOfFuel := by
  cases e <;> nofun

theorem Outcome.lift_eq_ok {β : Type} {e : Except PdfError β} {b : β}
    (h : (monadLift e : Outcome β) = .ok b) : e = .ok b := by
  cases e <;> cases h; rfl

theorem PdfObject.rawGet_eq_ok {o v : PdfObject} {k : String} :
    o.rawGet k = .ok v ↔ ∃ es st, o = .dictionary es st ∧ es.lookup k = some v := by
  constructor
  · intro h
    cases o with
    | dictionary es st =>
      simp only [PdfObject.rawGet_dictionary] at h
      split at h <;> simp_all
    | _ => simp [PdfObject.rawGet] at h
  · rintro ⟨es, st, rfl, h⟩
    simp [h]

namespace Objects

/-- `y` holds an object whose `/Type` is `/Pages`: a kid `_recurse` descends into. -/
def PagesAt (objs : Objects) (y : Reference) : Prop :=
  ∃ o, objs.get? y = some o ∧ objs.TypeIs o "/Pages"

/-- `_recurse` at the node `x` may call itself on `y`: `y` is listed in `x`'s `/Kids` and is a
`/Pages` object. -/
def DescendsTo (objs : Objects) (y x : Reference) : Prop :=
  ∃ es st kids items, objs.get? x = some (.dictionary es st) ∧ es.lookup "/Kids" = some kids ∧
    (objs.resolve kids >>= kidsIter) = .ok items ∧ PdfObject.indirect y ∈ items ∧ objs.PagesAt y

end Objects

/-! ### The walk -/

section Walk

variable (objs : Objects) (pageIx : Int) (retrieveParent : Bool)

/-- The loop over `/Kids` either ends without calling `_recurse`, the same way whatever the call
would do, or its outcome is that of one call, on a `/Pages` kid listed in `items`. -/
theorem walkKids_cases (pagesObjRef : Reference) (lastRsrcDict : PdfObject)
    (prevLastIndir : Reference) : ∀ (items : List PdfObject) (cur : Int) (idx : Nat),
    (∃ r, r ≠ .outOfFuel ∧ ∀ d, walkKids objs pageIx retrieveParent pagesObjRef lastRsrcDict
      prevLastIndir d cur idx items = r) ∨
    (∃ cur' y, PdfObject.indirect y ∈ items ∧ objs.PagesAt y ∧ ∀ d, walkKids objs pageIx
      retrieveParent pagesObjRef lastRsrcDict prevLastIndir d cur idx items = d cur' y)
  | [], _, _ => .inl ⟨.error (.valueError "Page not found"), nofun, fun _ => rfl⟩
  | kidRef :: rest, cur, idx => by
    -- the kid is passed over: the outcome is the rest's
    have next : ∀ cur', (∀ d, walkKids objs pageIx retrieveParent pagesObjRef lastRsrcDict
        prevLastIndir d cur idx (kidRef :: rest) = walkKids objs pageIx retrieveParent
          pagesObjRef lastRsrcDict prevLastIndir d cur' (idx + 1) rest) →
        (∃ r, r ≠ .outOfFuel ∧ ∀ d, walkKids objs pageIx retrieveParent pagesObjRef lastRsrcDict
          prevLastIndir d cur idx (kidRef :: rest) = r) ∨
        (∃ cur' y, PdfObject.indirect y ∈ kidRef :: rest ∧ objs.PagesAt y ∧ ∀ d, walkKids objs
          pageIx retrieveParent pagesObjRef lastRsrcDict prevLastIndir d cur idx (kidRef :: rest) =
            d cur' y) := by
      intro cur' h
      rcases walkKids_cases pagesObjRef lastRsrcDict prevLastIndir rest cur' (idx + 1) with
        ⟨r, hr, hrest⟩ | ⟨c', y, hy, hp, hrest⟩
      · exact .inl ⟨r, hr, fun d => (h d).trans (hrest d)⟩
      · exact .inr ⟨c', y, List.mem_cons_of_mem _ hy, hp, fun d => (h d).trans (hrest d)⟩
    cases hk : assertIndirect kidRef with
    | error e => exact .inl ⟨.error e, nofun, fun d => by
        simp only [walkKids, hk, Outcome.lift_error, Outcome.error_bind]⟩
    | ok y =>
    cases hg : objs.getObject y with
    | error e => exact .inl ⟨.error e, nofun, fun d => by
        simp only [walkKids, hk, hg, Outcome.lift_ok, Outcome.ok_bind, Outcome.lift_error,
          Outcome.error_bind]⟩
    | ok kid =>
    cases ht : objs.getItem kid "/Type" with
    | error e => exact .inl ⟨.error e, nofun, fun d => by
        simp only [walkKids, hk, hg, ht, Outcome.lift_ok, Outcome.ok_bind, Outcome.lift_error,
          Outcome.error_bind]⟩
    | ok nodeType =>
    by_cases hpages : nodeType.strValue? = some "/Pages"
    · cases hc : objs.getItem kid "/Count" with
      | error e =>
        exact .inl ⟨.error e, nofun, fun d => by
          simp only [walkKids, hk, hg, ht, hpages, hc, ↓reduceIte, Outcome.lift_ok, Outcome.ok_bind,
            Outcome.lift_error, Outcome.error_bind]⟩
      | ok cnt =>
        cases cnt with
        | number c =>
          by_cases hin : cur ≤ pageIx ∧ pageIx < cur + c
          · have hy : kidRef = .indirect y := eq_of_assertIndirect hk
            refine .inr ⟨cur, y, hy ▸ List.mem_cons_self _ _,
              ⟨kid, Objects.getObject_eq_ok.mp hg, nodeType, ht, hpages⟩, fun d => ?_⟩
            simp only [walkKids, hk, hg, ht, hpages, hc, hin, and_self, ↓reduceIte, Outcome.lift_ok,
              Outcome.ok_bind]
          · exact next (cur + c) fun d => by
              simp only [walkKids, hk, hg, ht, hpages, hc, hin, ↓reduceIte, Outcome.lift_ok,
                Outcome.ok_bind]
        | _ => exact .inl ⟨.error .typeError, nofun, fun d => by
            simp only [walkKids, hk, hg, ht, hpages, hc, ↓reduceIte, Outcome.lift_ok, Outcome.ok_bind,
              Outcome.throw_def]⟩
    · by_cases hpage : nodeType.strValue? = some "/Page"
      · by_cases hcur : cur = pageIx
        · cases retrieveParent
          · cases hr : kid.rawGetOr "/Resources" lastRsrcDict with
            | error e => exact .inl ⟨.error e, nofun, fun d => by
                simp only [walkKids, hk, hg, ht, hpages, hpage, hcur, hr, ↓reduceIte, Outcome.lift_ok,
                  Outcome.ok_bind, Outcome.lift_error, Outcome.error_bind, Bool.false_eq_true,
                  Option.some.injEq, String.reduceEq]⟩
            | ok v => exact .inl ⟨.ok (.page y v), nofun, fun d => by
                simp only [walkKids, hk, hg, ht, hpages, hpage, hcur, hr, ↓reduceIte, Outcome.lift_ok,
                  Outcome.ok_bind, Outcome.pure_def, Bool.false_eq_true, Option.some.injEq,
                  String.reduceEq]⟩
          · exact .inl ⟨.ok (.container pagesObjRef idx lastRsrcDict prevLastIndir), nofun,
              fun d => by
                simp only [walkKids, hk, hg, ht, hpages, hpage, hcur, ↓reduceIte, Outcome.lift_ok,
                  Outcome.ok_bind, Outcome.pure_def, Option.some.injEq, String.reduceEq]⟩
        · exact next (cur + 1) fun d => by
            simp only [walkKids, hk, hg, ht, hpages, hpage, hcur, ↓reduceIte, Outcome.lift_ok,
              Outcome.ok_bind, Option.some.injEq, String.reduceEq]
      · exact next cur fun d => by
          simp only [walkKids, hk, hg, ht, hpages, hpage, ↓reduceIte, Outcome.lift_ok, Outcome.ok_bind]

/-- One call of `_recurse` either ends the same way with any fuel, or its outcome is that of
the call it makes on a `/Pages` kid, with one unit of fuel less. -/
theorem recurse_succ_cases (first : Int) (x : Reference) (rsrc : PdfObject) (prev : Reference) :
    (∃ r, r ≠ .outOfFuel ∧
      ∀ fuel, recurse objs pageIx retrieveParent (fuel + 1) first x rsrc prev = r) ∨
    (∃ cur y rsrc', objs.DescendsTo y x ∧ ∀ fuel,
      recurse objs pageIx retrieveParent (fuel + 1) first x rsrc prev =
        recurse objs pageIx retrieveParent fuel cur y rsrc' y) := by
  cases hg : objs.getObject x with
  | error e => exact .inl ⟨.error e, nofun, fun _ => by simp [recurse, hg]⟩
  | ok pagesObj =>
  cases hk : pagesObj.rawGet "/Kids" with
  | error e => exact .inl ⟨.error e, nofun, fun _ => by simp [recurse, hg, hk]⟩
  | ok kidsRaw =>
  cases hres : objs.resolve kidsRaw with
  | error e => exact .inl ⟨.error e, nofun, fun _ => by simp [recurse, hg, hk, hres]⟩
  | ok kids =>
  cases hr : pagesObj.rawGetOr "/Resources" rsrc with
  | error e => exact .inl ⟨.error e, nofun, fun _ => by simp [recurse, hg, hk, hres, hr]⟩
  | ok rsrc' =>
  cases hi : kidsIter kids with
  | error e => exact .inl ⟨.error e, nofun, fun _ => by simp [recurse, hg, hk, hres, hr, hi]⟩
  | ok items =>
  rcases walkKids_cases objs pageIx retrieveParent x rsrc' prev items first 0 with
    ⟨r, hr', h⟩ | ⟨cur, y, hy, hp, h⟩
  · refine .inl ⟨r, hr', fun _ => ?_⟩
    simp only [recurse, hg, hk, hres, hr, hi, Outcome.lift_ok, Outcome.ok_bind]
    exact h _
  · obtain ⟨es, st, rfl, hl⟩ := PdfObject.rawGet_eq_ok.mp hk
    refine .inr ⟨cur, y, rsrc', ⟨es, st, kidsRaw, items, Objects.getObject_eq_ok.mp hg, hl,
      by rw [hres]; exact hi, hy, hp⟩, fun _ => ?_⟩
    simp only [recurse, hg, hk, hres, hr, hi, Outcome.lift_ok, Outcome.ok_bind]
    exact h _

theorem recurse_mono : ∀ (n : Nat) (first : Int) (x : Reference) (rsrc : PdfObject)
    (prev : Reference), recurse objs pageIx retrieveParent n first x rsrc prev ≠ .outOfFuel →
    ∀ m, n ≤ m → recurse objs pageIx retrieveParent m first x rsrc prev =
      recurse objs pageIx retrieveParent n first x rsrc prev
  | 0, _, _, _, _, h, _, _ => absurd rfl h
  | n + 1, first, x, rsrc, prev, h, m, hm => by
    obtain ⟨m, rfl⟩ : ∃ m', m = m' + 1 := ⟨m - 1, by omega⟩
    rcases recurse_succ_cases objs pageIx retrieveParent first x rsrc prev with
      ⟨r, -, hr⟩ | ⟨cur, y, rsrc', -, hr⟩
    · rw [hr, hr]
    · rw [hr] at h
      rw [hr, hr]
      exact recurse_mono n cur y rsrc' y h m (by omega)

/-- Where the descent through `/Pages` kids is well founded, `_recurse` ends. -/
theorem recurse_terminates {x : Reference} (hacc : Acc objs.DescendsTo x) :
    ∀ first rsrc prev, ∃ n, recurse objs pageIx retrieveParent n first x rsrc prev ≠ .outOfFuel := by
  induction hacc with
  | intro x _ ih =>
    intro first rsrc prev
    rcases recurse_succ_cases objs pageIx retrieveParent first x rsrc prev with
      ⟨r, hr, h⟩ | ⟨cur, y, rsrc', hy, h⟩
    · exact ⟨1, by rw [h]; exact hr⟩
    · obtain ⟨n, hn⟩ := ih y hy cur rsrc' y
      exact ⟨n + 1, by rw [h]; exact hn⟩

theorem recurse_settles {x : Reference} (hacc : Acc objs.DescendsTo x) (first : Int)
    (rsrc : PdfObject) (prev : Reference) :
    Settles fun n => recurse objs pageIx retrieveParent n first x rsrc prev :=
  let ⟨n, hn⟩ := recurse_terminates objs pageIx retrieveParent hacc first rsrc prev
  ⟨n, hn, recurse_mono objs pageIx retrieveParent n first x rsrc prev hn⟩

end Walk

theorem walkPageTree_settles {w : BasePdfFileWriter}
    (hacc : ∀ es st r, w.objects.get? w.root = some (.dictionary es st) →
      es.lookup "/Pages" = some (.indirect r) → Acc w.objects.DescendsTo r)
    (pageIx : Int) (retrieveParent : Bool) :
    Settles fun n => walkPageTree n w pageIx retrieveParent := by
  unfold walkPageTree
  refine Settles.bind (Outcome.lift_ne_outOfFuel _) fun cat hcat => ?_
  refine Settles.bind (Outcome.lift_ne_outOfFuel _) fun pv hpv => ?_
  refine Settles.bind (Outcome.lift_ne_outOfFuel _) fun r hr => ?_
  refine Settles.bind (Outcome.lift_ne_outOfFuel _) fun root _ => ?_
  refine Settles.bind (Outcome.lift_ne_outOfFuel _) fun rsrc _ => ?_
  refine Settles.bind (Outcome.lift_ne_outOfFuel _) fun cnt _ => ?_
  refine Settles.bind (Outcome.lift_ne_outOfFuel _) fun b _ => ?_
  cases b
  · exact Settles.const nofun
  · obtain ⟨es, st, rfl, hl⟩ := PdfObject.rawGet_eq_ok.mp (Outcome.lift_eq_ok hpv)
    have hr' := Outcome.lift_eq_ok hr
    obtain rfl := eq_of_assertIndirect hr'
    exact recurse_settles w.objects pageIx retrieveParent
      (hacc es st r (Objects.getObject_eq_ok.mp (Outcome.lift_eq_ok hcat)) hl) 0 rsrc r

/-! ### `insert_page` -/

theorem Settles.bind_of {α β : Type} {f : Nat → Outcome β} (hf : Settles f) {g : β → Outcome α}
    (hg : ∀ b, g b ≠ .outOfFuel) : Settles fun n => f n >>= g := by
  obtain ⟨n, hn, hm⟩ := hf
  refine ⟨n, ?_, fun m hmn => by simp only [hm m hmn]⟩
  show f n >>= g ≠ .outOfFuel
  cases h : f n with
  | ok b => exact hg b
  | error e => nofun
  | outOfFuel => exact absurd h hn

theorem Outcome.bind_ne_outOfFuel {α β : Type} {x : Outcome β} (hx : x ≠ .outOfFuel)
    {f : β → Outcome α} (hf : ∀ b, x = .ok b → f b ≠ .outOfFuel) : x >>= f ≠ .outOfFuel := by
  cases x with
  | ok b => exact hf b rfl
  | error e => nofun
  | outOfFuel => exact absurd rfl hx

theorem Outcome.eq_ok_of_bind {α β : Type} {x : Outcome β} {f : β → Outcome α} {a : α}
    (h : x >>= f = .ok a) : ∃ b, x = .ok b ∧ f b = .ok a := by
  cases x with
  | ok b => exact ⟨b, rfl, h⟩
  | error e => cases h
  | outOfFuel => cases h

namespace BasePdfFileWriter

variable {w : BasePdfFileWriter}

theorem kidsPlan_ne_outOfFuel (pagesObjRef : PdfObject) (pagesLoc : Loc) (insertIx : Nat)
    (updBoundary : PdfObject) : w.kidsPlan pagesObjRef pagesLoc insertIx updBoundary ≠ .outOfFuel := by
  unfold kidsPlan
  refine Outcome.bind_ne_outOfFuel (Outcome.lift_ne_outOfFuel _) fun o _ => ?_
  refine Outcome.bind_ne_outOfFuel (Outcome.lift_ne_outOfFuel _) fun v _ => ?_
  split
  · exact Outcome.bind_ne_outOfFuel (Outcome.lift_ne_outOfFuel _) fun _ _ => nofun
  · nofun

/-- Up to `locate_plan` a call uses no fuel: it raises the same error for every fuel, or goes
on to locate the node with the same arguments. -/
def LocatesPlan (w : BasePdfFileWriter) (plan : Nat → Outcome InsertPlan) : Prop :=
  (∃ e, ∀ fuel, plan fuel = .error e) ∨ ∃ r a, ∀ fuel, plan fuel = w.locatePlan fuel r a

theorem LocatesPlan.bind {β : Type} {x : Outcome β} (hx : x ≠ .outOfFuel)
    {g : β → Nat → Outcome InsertPlan} (hg : ∀ b, LocatesPlan w (g b)) :
    LocatesPlan w fun fuel => x >>= fun b => g b fuel := by
  cases x with
  | ok b => exact hg b
  | error e => exact .inl ⟨e, fun _ => rfl⟩
  | outOfFuel => exact absurd rfl hx

theorem LocatesPlan.guard {c : Prop} [Decidable c] (e : PdfError)
    {g : PUnit → Nat → Outcome InsertPlan} (hg : LocatesPlan w (g ⟨⟩)) :
    LocatesPlan w fun fuel =>
      if c then throw e >>= (g · fuel) else pure PUnit.unit >>= (g · fuel) := by
  by_cases hc : c
  · exact .inl ⟨e, fun _ => by simp only [hc, if_true]; rfl⟩
  · simp only [hc, if_false, Outcome.pure_def, Outcome.ok_bind]
    exact hg

theorem insertPlan_cases (newPage : PdfObject) (after : Option Int) :
    LocatesPlan w fun fuel => w.insertPlan fuel newPage after := by
  unfold insertPlan
  refine LocatesPlan.bind (Outcome.lift_ne_outOfFuel _) fun pageType => ?_
  refine LocatesPlan.guard _ (LocatesPlan.guard _ ?_)
  refine LocatesPlan.bind (Outcome.lift_ne_outOfFuel _) fun cat => ?_
  refine LocatesPlan.bind (Outcome.lift_ne_outOfFuel _) fun r => ?_
  cases after with
  | some a => exact .inr ⟨r, a, fun _ => rfl⟩
  | none =>
    refine LocatesPlan.bind (Outcome.lift_ne_outOfFuel _) fun root => ?_
    refine LocatesPlan.bind (Outcome.lift_ne_outOfFuel _) fun cnt => ?_
    cases cnt with
    | number n => exact .inr ⟨r, n - 1, fun _ => rfl⟩
    | _ => exact .inl ⟨.typeError, fun _ => rfl⟩

theorem kidsPlan_pagesLoc {pagesObjRef : PdfObject} {pagesLoc : Loc} {insertIx : Nat}
    {updBoundary : PdfObject} {plan : InsertPlan}
    (h : w.kidsPlan pagesObjRef pagesLoc insertIx updBoundary = .ok plan) :
    plan.pagesLoc = pagesLoc := by
  unfold kidsPlan at h
  obtain ⟨o, -, h⟩ := Outcome.eq_ok_of_bind h
  obtain ⟨v, -, h⟩ := Outcome.eq_ok_of_bind h
  split at h
  · obtain ⟨_, -, h⟩ := Outcome.eq_ok_of_bind h
    cases h; rfl
  · cases h; rfl

theorem insertPlan_pagesLoc {fuel : Nat} {newPage : PdfObject} {after : Option Int}
    {plan : InsertPlan} (h : w.insertPlan fuel newPage after = .ok plan) :
    "/Count" ∉ plan.pagesLoc.path := by
  rcases insertPlan_cases (w := w) newPage after with ⟨e, he⟩ | ⟨r, a, he⟩
  · cases (he fuel).symm.trans h
  · replace h := (he fuel).symm.trans h
    unfold locatePlan at h
    split at h
    · rw [kidsPlan_pagesLoc h]
      unfold rootPagesLoc
      split <;> simp [Loc.top, Loc.child]
    · obtain ⟨loc, -, h⟩ := Outcome.eq_ok_of_bind h
      split at h
      · rw [kidsPlan_pagesLoc h]; simp [Loc.top]
      · cases h

variable (hacc : ∀ es st r, w.objects.get? w.root = some (.dictionary es st) →
  es.lookup "/Pages" = some (.indirect r) → Acc w.objects.DescendsTo r)
include hacc

theorem locatePlan_settles (pageTreeRootRef : PdfObject) (after : Int) :
    Settles fun n => w.locatePlan n pageTreeRootRef after := by
  unfold locatePlan
  by_cases ha : after = -1
  · simp only [ha, ↓reduceIte]
    exact Settles.const (kidsPlan_ne_outOfFuel _ _ _ _)
  · simp only [ha, ↓reduceIte]
    refine Settles.bind_of (walkPageTree_settles hacc after true) fun loc => ?_
    cases loc with
    | container c k _ u => exact kidsPlan_ne_outOfFuel _ _ _ _
    | page _ _ => nofun

theorem insertPlan_settles (newPage : PdfObject) (after : Option Int) :
    Settles fun n => w.insertPlan n newPage after := by
  rcases insertPlan_cases newPage after with ⟨e, h⟩ | ⟨r, a, h⟩
  · rw [show (fun n => w.insertPlan n newPage after) = fun _ => .error e from funext h]
    exact Settles.const nofun
  · rw [show (fun n => w.insertPlan n newPage after) = fun n => w.locatePlan n r a from funext h]
    exact locatePlan_settles hacc r a

end BasePdfFileWriter

theorem increaseCounts_mono : ∀ (n : Nat) (objs : Objects) (l : Loc),
    (increaseCounts n objs l).1 ≠ .outOfFuel → ∀ m, n ≤ m → increaseCounts m objs l = increaseCounts n objs l
  | 0, _, _, h, _, _ => absurd rfl h
  | n + 1, objs, l, h, m, hm => by
    obtain ⟨m, rfl⟩ : ∃ m', m = m' + 1 := ⟨m - 1, by omega⟩
    cases hc : objs.countAt l with
    | error e => simp [increaseCounts, hc]
    | ok count =>
      simp only [increaseCounts, hc] at h ⊢
      split
      · rfl
      · rfl
      · rename_i parent hp
        rw [hp] at h
        exact increaseCounts_mono n _ _ h m (by omega)

namespace BasePdfFileWriter

theorem insertNewPage_ne_outOfFuel (w : BasePdfFileWriter) (newPage : PdfObject) (plan : InsertPlan) :
    (w.insertNewPage newPage plan).1 ≠ .outOfFuel := by
  simp only [insertNewPage]
  split <;> nofun

/-- `insert_page` settles when the walk does and the `/Parent` steps from the node receiving
the page come to an end. -/
theorem insertPage_settles {w : BasePdfFileWriter}
    (hacc : ∀ es st r, w.objects.get? w.root = some (.dictionary es st) →
      es.lookup "/Pages" = some (.indirect r) → Acc w.objects.DescendsTo r)
    {newPage : PdfObject} {after : Option Int}
    (hloop : ∀ fuel plan, w.insertPlan fuel newPage after = .ok plan →
      ∃ ls, ParentSteps w.objects plan.pagesLoc ls) :
    ∃ n, (w.insertPage n newPage after).1 ≠ .outOfFuel ∧
      ∀ m, n ≤ m → w.insertPage m newPage after = w.insertPage n newPage after := by
  obtain ⟨n₀, hn₀, hm₀⟩ := insertPlan_settles hacc newPage after
  cases hplan : w.insertPlan n₀ newPage after with
  | outOfFuel => exact absurd hplan hn₀
  | error e =>
    refine ⟨n₀, by simp [insertPage, hplan], fun m hm => ?_⟩
    simp only [insertPage, hm₀ m hm, hplan]
  | ok plan =>
    obtain ⟨ls, hs⟩ := hloop n₀ plan hplan
    have hends := increaseCounts_ends ls _ _ hs (insertPlan_pagesLoc hplan)
    have hplan' : ∀ m, max n₀ (ls.length + 1) ≤ m → w.insertPlan m newPage after = .ok plan :=
      fun m hm => (hm₀ m ((le_max_left _ _).trans hm)).trans hplan
    have hrun : ∀ m, ls.length + 1 ≤ m → increaseCounts m w.objects plan.pagesLoc =
        increaseCounts (ls.length + 1) w.objects plan.pagesLoc :=
      increaseCounts_mono _ _ _ (hends _ (Nat.lt_succ_self _))
    refine ⟨max n₀ (ls.length + 1), ?_, fun m hm => ?_⟩
    · have hne := hends (max n₀ (ls.length + 1)) (by omega)
      simp only [insertPage, hplan' _ le_rfl]
      rcases hr : increaseCounts (max n₀ (ls.length + 1)) w.objects plan.pagesLoc with
        ⟨_ | _ | _, _⟩
      · exact insertNewPage_ne_outOfFuel _ _ _
      · nofun
      · rw [hr] at hne; exact absurd rfl hne
    · simp only [insertPage, hplan' _ le_rfl, hplan' m hm, hrun m (by omega),
        hrun (max n₀ (ls.length + 1)) (le_max_right _ _)]

end BasePdfFileWriter

theorem acc_onePage : ∀ es st r, onePageWriter.objects.get? onePageWriter.root =
    some (.dictionary es st) → es.lookup "/Pages" = some (.indirect r) →
      Acc (Objects.DescendsTo onePageWriter.objects) r := by
  intro es st r hcat hpages
  have hroot : onePageWriter.objects.get? onePageWriter.root = some (.dictionary
      [("/Type", .name "/Catalog"), ("/Pages", .indirect ⟨0, 3⟩)] none) := rfl
  rw [hroot] at hcat
  cases hcat
  have hr : some (PdfObject.indirect ⟨0, 3⟩) = some (.indirect r) := hpages
  cases hr
  refine Acc.intro _ fun y hy => ?_
  obtain ⟨es', st', kids, items, hg, hk, hi, hy, o, ho, v, hv, hs⟩ := hy
  have h3 : onePageWriter.objects.get? ⟨0, 3⟩ = some (.dictionary [("/Type", .name "/Pages"),
      ("/Count", .number 1), ("/Kids", .array [.indirect ⟨0, 4⟩])] none) := rfl
  rw [h3] at hg
  cases hg
  have hk' : some (PdfObject.array [.indirect ⟨0, 4⟩]) = some kids := hk
  cases hk'
  have hi' : Except.ok [PdfObject.indirect ⟨0, 4⟩] = .ok items := hi
  cases hi'
  simp only [List.mem_singleton, PdfObject.indirect.injEq] at hy
  subst hy
  have h4 : onePageWriter.objects.get? ⟨0, 4⟩ = some (.dictionary [("/Type", .name "/Page"),
      ("/Parent", .indirect ⟨0, 3⟩)] none) := rfl
  rw [h4] at ho
  cases ho
  have hv' : Except.ok (PdfObject.name "/Page") = .ok v := hv
  cases hv'
  exact absurd hs (by decide)

theorem parentSteps_onePage_first (fuel : Nat) (plan : InsertPlan)
    (h : onePageWriter.insertPlan fuel (.dictionary [("/Type", .name "/Page")] none) (some (-1)) =
      .ok plan) : ∃ ls, ParentSteps onePageWriter.objects plan.pagesLoc ls := by
  have hplan : onePageWriter.insertPlan fuel (.dictionary [("/Type", .name "/Page")] none)
      (some (-1)) = .ok ⟨.indirect ⟨0, 3⟩, Loc.top ⟨0, 3⟩, 0, .indirect ⟨0, 3⟩,
        (Loc.top ⟨0, 3⟩).child "/Kids", none⟩ := rfl
  cases hplan.symm.trans h
  exact ⟨[], .last fun _ => nofun⟩

/-- A walk that comes back into the node it is at, with the same arguments, nests deeper than
any fuel. -/
theorem recurse_loops {objs : Objects} {pageIx : Int} {retrieveParent : Bool} {first : Int}
    {x : Reference} {rsrc : PdfObject}
    (h : ∀ fuel, recurse objs pageIx retrieveParent (fuel + 1) first x rsrc x =
      recurse objs pageIx retrieveParent fuel first x rsrc x) :
    ∀ fuel, recurse objs pageIx retrieveParent fuel first x rsrc x = .outOfFuel
  | 0 => rfl
  | fuel + 1 => (h fuel).trans (recurse_loops h fuel)

/-- A writer whose page tree root `3` lists itself as its one kid. -/
def kidsCycleWriter : BasePdfFileWriter :=
  { pdfFileWriter (.array []) with
    objects := ⟨[(⟨0, 1⟩, .dictionary [("/Type", .name "/Catalog"), ("/Pages", .indirect ⟨0, 3⟩)] none),
      (⟨0, 2⟩, .dictionary [("/Producer", .string "pdfstamp")] none),
      (⟨0, 3⟩, .dictionary [("/Type", .name "/Pages"), ("/Count", .number 1),
        ("/Kids", .array [.indirect ⟨0, 3⟩])] none)],
      by decide⟩
    lastobjId := 3 }

/-- A `/Count` loop on a node whose `/Parent` refers to the node itself never ends. -/
theorem increaseCounts_cycle {r : Reference} : ∀ (fuel : Nat) (objs : Objects) (es : Entries)
    (st : Option (List UInt8)) (n : Int), objs.get? r = some (.dictionary es st) →
    es.lookup "/Count" = some (.number n) → es.lookup "/Parent" = some (.indirect r) →
    (increaseCounts fuel objs (Loc.top r)).1 = .outOfFuel
  | 0, _, _, _, _, _, _, _ => rfl
  | fuel + 1, objs, es, st, n, hg, hc, hp => by
    have hn : objs.countAt (Loc.top r) = .ok n :=
      (Objects.countAt_top hg n).mpr (by simp [Objects.getItem, hc, Objects.resolve])
    have hg' : (objs.modify r (·.setItem "/Count" (.number (n + 1)))).get? r =
        some (.dictionary (setEntry es "/Count" (.number (n + 1))) st) := by simp [hg]
    have hparent : Objects.parentGet (objs.modify r (·.setItem "/Count" (.number (n + 1)))) (Loc.top r) =
        .ok (some (Loc.top r)) := by
      simp only [parentGet_raised_indirect hg hp, Objects.getObject_eq_ok.mpr hg', Except.map]
    rw [increaseCounts_succ_parent hn hparent]
    exact increaseCounts_cycle fuel _ _ st (n + 1) hg' (lookup_setEntry_self _ _ _)
      ((lookup_setEntry_of_ne _ _ (by decide)).trans hp)

/-- A writer whose page tree root `3`, with no kids yet, gives itself as its `/Parent`. -/
def parentCycleWriter : BasePdfFileWriter :=
  { pdfFileWriter (.array []) with
    objects := ⟨[(⟨0, 1⟩, .dictionary [("/Type", .name "/Catalog"), ("/Pages", .indirect ⟨0, 3⟩)] none),
      (⟨0, 2⟩, .dictionary [("/Producer", .string "pdfstamp")] none),
      (⟨0, 3⟩, .dictionary [("/Type", .name "/Pages"), ("/Count", .number 0), ("/Kids", .array []),
        ("/Parent", .indirect ⟨0, 3⟩)] none)],
      by decide⟩
    lastobjId := 3 }

end PyHanko
