import PyHanko.PageTree.Tree
import PyHanko.PageTree.Insert

/-!
# The `/Count` loop of `insert_page`

`insert_page` raises the `/Count` of the node receiving the page and then of every node up
its `/Parent` links, until a node has no `/Parent`. On a chain of distinct nodes the loop ends
after one round per node and changes nothing but those `/Count` entries (`increaseCounts_chain`).
More generally, raising a `/Count` changes none of the steps `parent.get('/Parent')` takes
(`parentGet_raiseCount`), so the loop ends on any finite chain of such steps
(`increaseCounts_ends`).
In a well-formed tree the chain from a node is the node and the frames around it, innermost
first (`parentChain_of_ctx`).
-/

namespace PyHanko

set_option autoImplicit false

open PageTree

namespace Objects

/-- The node at `r` as one round of the loop leaves it: its `/Count` raised by one. -/
def countRaised (objs : Objects) (r : Reference) : Option PdfObject :=
  match objs.get? r, objs.countAt (Loc.top r) with
  | some d, .ok n => some (d.setItem "/Count" (.number (n + 1)))
  | o, _ => o

theorem countAt_top {objs : Objects} {r : Reference} {d : PdfObject} (h : objs.get? r = some d)
    (n : Int) : objs.countAt (Loc.top r) = .ok n ↔ objs.getItem d "/Count" = .ok (.number n) := by
  simp only [countAt, objectAt_top, h, Option.getD_some]
  cases objs.getItem d "/Count" with
  | error e => simp
  | ok v => cases v <;> simp

theorem countRaised_of_get {objs : Objects} {r : Reference} {d : PdfObject} {n : Int}
    (h : objs.get? r = some d) (hn : objs.countAt (Loc.top r) = .ok n) :
    objs.countRaised r = some (d.setItem "/Count" (.number (n + 1))) := by
  simp [countRaised, h, hn]

theorem keepsScalars_modify {objs : Objects} {x : Reference} {d : PdfObject}
    (h : objs.get? x = some d) (hd : d.isScalar = false) (f : PdfObject → PdfObject) :
    objs.KeepsScalars (objs.modify x f) := by
  intro k v hk hv
  rw [PyDict.get?_modify]
  split
  · subst k; rw [h] at hk; cases hk; simp_all
  · exact hk

theorem KeepsScalars.trans {o₁ o₂ o₃ : Objects} (h₁ : o₁.KeepsScalars o₂)
    (h₂ : o₂.KeepsScalars o₃) : o₁.KeepsScalars o₃ :=
  fun k v hk hv => h₂ k v (h₁ k v hk hv) hv

theorem countAt_of_agree {objs objs' : Objects} (hk : objs.KeepsScalars objs') {r : Reference}
    (hr : objs'.get? r = objs.get? r) {n : Int} (h : objs.countAt (Loc.top r) = .ok n) :
    objs'.countAt (Loc.top r) = .ok n := by
  cases hg : objs.get? r with
  | none => simp [countAt, hg] at h; simp [getItem] at h
  | some d =>
    rw [countAt_top hg] at h
    rw [countAt_top (hr.trans hg)]
    exact getItem_of_keepsScalars hk h rfl

theorem countRaised_of_agree {objs objs' : Objects} (hk : objs.KeepsScalars objs') {r : Reference}
    (hr : objs'.get? r = objs.get? r) {n : Int} (hn : objs.countAt (Loc.top r) = .ok n) :
    objs'.countRaised r = objs.countRaised r := by
  have hn' := countAt_of_agree hk hr hn
  cases hg : objs.get? r with
  | none => simp [countRaised, hg, hr]
  | some d => rw [countRaised_of_get hg hn, countRaised_of_get (hr.trans hg) hn']

end Objects

/-- `xs` is a chain of `/Parent` links: each node a dictionary with a numeric `/Count` whose
`/Parent` refers to the next node, the last node without `/Parent`. -/
inductive ParentChain (objs : Objects) : List Reference → Prop
  | last {x : Reference} {es : Entries} {st : Option (List UInt8)} {n : Int} :
      objs.get? x = some (.dictionary es st) → objs.countAt (Loc.top x) = .ok n →
      es.lookup "/Parent" = none → ParentChain objs [x]
  | cons {x y : Reference} {rest : List Reference} {es : Entries} {st : Option (List UInt8)}
      {n : Int} :
      objs.get? x = some (.dictionary es st) → objs.countAt (Loc.top x) = .ok n →
      es.lookup "/Parent" = some (.indirect y) → ParentChain objs (y :: rest) →
      ParentChain objs (x :: y :: rest)

theorem ParentChain.countAt {objs : Objects} :
    ∀ {xs : List Reference}, ParentChain objs xs → ∀ z ∈ xs, ∃ n, objs.countAt (Loc.top z) = .ok n
  | _, .last _ hn _, z, hz => by simp at hz; subst hz; exact ⟨_, hn⟩
  | _, .cons _ hn _ hrest, z, hz => by
    rcases List.mem_cons.mp hz with rfl | hz
    · exact ⟨_, hn⟩
    · exact hrest.countAt z hz

theorem ParentChain.get {objs : Objects} :
    ∀ {xs : List Reference}, ParentChain objs xs →
      ∀ z ∈ xs, ∃ es st, objs.get? z = some (.dictionary es st)
  | _, .last hg _ _, z, hz => by simp at hz; subst hz; exact ⟨_, _, hg⟩
  | _, .cons hg _ _ hrest, z, hz => by
    rcases List.mem_cons.mp hz with rfl | hz
    · exact ⟨_, _, hg⟩
    · exact hrest.get z hz

theorem ParentChain.of_agree {objs objs' : Objects} (hk : objs.KeepsScalars objs') :
    ∀ {xs : List Reference}, ParentChain objs xs → (∀ x ∈ xs, objs'.get? x = objs.get? x) →
      ParentChain objs' xs
  | _, .last hg hn hp, hxs => .last ((hxs _ (by simp)).trans hg)
      (Objects.countAt_of_agree hk (hxs _ (by simp)) hn) hp
  | _, .cons hg hn hp hrest, hxs => .cons ((hxs _ (by simp)).trans hg)
      (Objects.countAt_of_agree hk (hxs _ (by simp)) hn) hp
      (hrest.of_agree hk fun x hx => hxs x (by simp_all))

section RaisedRound

variable {objs : Objects} {x : Reference} {es : Entries} {st : Option (List UInt8)} {n : Int}

theorem increaseCounts_succ_root (hn : objs.countAt (Loc.top x) = .ok n)
    (hp : Objects.parentGet (objs.modify x (·.setItem "/Count" (.number (n + 1)))) (Loc.top x) =
      .ok none) (fuel : Nat) :
    increaseCounts (fuel + 1) objs (Loc.top x) =
      (.ok (), objs.modify x (·.setItem "/Count" (.number (n + 1)))) := by
  simp only [increaseCounts, hn, Objects.modifyAt_top, hp]

theorem increaseCounts_succ_parent (hn : objs.countAt (Loc.top x) = .ok n) {parent : Loc}
    (hp : Objects.parentGet (objs.modify x (·.setItem "/Count" (.number (n + 1)))) (Loc.top x) =
      .ok (some parent)) (fuel : Nat) :
    increaseCounts (fuel + 1) objs (Loc.top x) =
      increaseCounts fuel (objs.modify x (·.setItem "/Count" (.number (n + 1)))) parent := by
  simp only [increaseCounts, hn, Objects.modifyAt_top, hp]

theorem parentGet_raised_none (hg : objs.get? x = some (.dictionary es st))
    (hp : es.lookup "/Parent" = none) (v : PdfObject) :
    Objects.parentGet (objs.modify x (·.setItem "/Count" v)) (Loc.top x) = .ok none := by
  simp only [Objects.parentGet, Objects.objectAt_top, PyDict.get?_modify_self, hg, Option.map_some',
    PdfObject.setItem_dictionary, hp,
    lookup_setEntry_of_ne _ v (show ("/Parent" : String) ≠ "/Count" by decide)]

theorem parentGet_raised_indirect (hg : objs.get? x = some (.dictionary es st)) {r : Reference}
    (hp : es.lookup "/Parent" = some (.indirect r)) (v : PdfObject) :
    Objects.parentGet (objs.modify x (·.setItem "/Count" v)) (Loc.top x) =
      (Objects.getObject (objs.modify x (·.setItem "/Count" v)) r).map fun _ => some (Loc.top r) := by
  simp only [Objects.parentGet, Objects.objectAt_top, PyDict.get?_modify_self, hg, Option.map_some',
    PdfObject.setItem_dictionary, hp,
    lookup_setEntry_of_ne _ v (show ("/Parent" : String) ≠ "/Count" by decide)]

end RaisedRound

/-- The loop on a chain of distinct nodes ends after a round per node, having raised their
`/Count` entries and nothing else. -/
theorem increaseCounts_chain :
    ∀ (xs : List Reference) (objs : Objects) (x : Reference), ParentChain objs (x :: xs) →
      (x :: xs).Nodup → ∀ fuel, xs.length + 1 ≤ fuel →
      ∃ objs', increaseCounts fuel objs (Loc.top x) = (.ok (), objs') ∧
        objs'.keys = objs.keys ∧ objs.KeepsScalars objs' ∧
        ∀ z, objs'.get? z = if z ∈ x :: xs then objs.countRaised z else objs.get? z
  | [], objs, x, @ParentChain.last _ _ es st n hg hn hp, _, fuel, hfuel => by
    obtain ⟨f, rfl⟩ : ∃ f, fuel = f + 1 := ⟨fuel - 1, by simp at hfuel; omega⟩
    refine ⟨objs.modify x (·.setItem "/Count" (.number (n + 1))), ?_, by simp,
      Objects.keepsScalars_modify hg rfl _, fun z => ?_⟩
    · exact increaseCounts_succ_root hn (parentGet_raised_none hg hp _) f
    · rw [PyDict.get?_modify]
      by_cases hz : z = x
      · subst hz; simp [Objects.countRaised_of_get hg hn, hg]
      · simp [hz]
  | y :: rest, objs, x, @ParentChain.cons _ _ _ _ es st n hg hn hp hchain, hnd, fuel, hfuel => by
    obtain ⟨f, rfl⟩ : ∃ f, fuel = f + 1 := ⟨fuel - 1, by simp at hfuel; omega⟩
    have hxy : x ∉ y :: rest := (List.nodup_cons.mp hnd).1
    set objs₁ : Objects := objs.modify x (·.setItem "/Count" (.number (n + 1))) with hobjs₁
    have hk₁ : objs.KeepsScalars objs₁ := Objects.keepsScalars_modify hg rfl _
    have hagree : ∀ z, z ≠ x → objs₁.get? z = objs.get? z := fun z hz =>
      PyDict.get?_modify_of_ne _ _ hz
    obtain ⟨esy, sty, hgy⟩ := hchain.get y (List.mem_cons_self _ _)
    have hparent : objs₁.parentGet (Loc.top x) = .ok (some (Loc.top y)) := by
      rw [parentGet_raised_indirect hg hp]
      have : objs₁.getObject y = .ok (.dictionary esy sty) := by
        rw [Objects.getObject_eq_ok, hagree y (fun h => hxy (h ▸ by simp)), hgy]
      simp [hobjs₁] at this ⊢
      rw [this]; rfl
    have hchain₁ := hchain.of_agree hk₁ fun z hz => hagree z (fun h => hxy (h ▸ hz))
    obtain ⟨objs', hrun, hkeys, hk', hget⟩ :=
      increaseCounts_chain rest objs₁ y hchain₁ (List.nodup_cons.mp hnd).2 f
        (by simp at hfuel ⊢; omega)
    refine ⟨objs', ?_, by rw [hkeys]; simp [hobjs₁], hk₁.trans hk', fun z => ?_⟩
    · rw [increaseCounts_succ_parent hn hparent]; exact hrun
    · rw [hget z]
      by_cases hz : z = x
      · subst hz
        simp only [hxy, if_false, List.mem_cons, true_or, if_true, hobjs₁, PyDict.get?_modify_self,
          hg, Option.map_some', Objects.countRaised_of_get hg hn]
      · by_cases hzm : z ∈ y :: rest
        · obtain ⟨m, hm⟩ := hchain.countAt z hzm
          simp only [hzm, if_true, List.mem_cons, hz, false_or]
          exact Objects.countRaised_of_agree hk₁ (hagree z hz) hm
        · simp [hzm, hz, hagree z hz]

/-! ### Any finite chain of `/Parent` steps -/

namespace PdfObject

/-- The reference an object is, if it is one. -/
def refOf : PdfObject → Option Reference
  | .indirect r => some r
  | _ => none

/-- What `parent.get('/Parent')` makes of an object: `none` ends the loop, `some (some r)` moves
to the object `r` refers to, `some none` to the value held in place. -/
def parentStep : PdfObject → Option (Option Reference)
  | .dictionary es _ => (es.lookup "/Parent").map refOf
  | _ => none

theorem refOf_modifyAt_setItem (v : PdfObject) (ps : List String) (k : String) (x : PdfObject) :
    (v.modifyAt ps (·.setItem k x)).refOf = v.refOf := by
  cases ps with
  | nil => cases v <;> rfl
  | cons p ps =>
    cases v with
    | dictionary es st => simp only [modifyAt]; split <;> rfl
    | _ => rfl

theorem parentStep_modifyAt_setCount (o : PdfObject) (p : List String) (x : PdfObject) :
    (o.modifyAt p (·.setItem "/Count" x)).parentStep = o.parentStep := by
  cases p with
  | nil =>
    cases o with
    | dictionary es st =>
      simp only [modifyAt_nil, setItem_dictionary, parentStep,
        lookup_setEntry_of_ne _ x (show ("/Parent" : String) ≠ "/Count" by decide)]
    | _ => rfl
  | cons k ps =>
    cases o with
    | dictionary es st =>
      cases hk : es.lookup k with
      | none => simp only [modifyAt, hk]
      | some v =>
        simp only [modifyAt, hk, parentStep]
        by_cases h : k = "/Parent"
        · subst h
          simp only [lookup_setEntry_self, hk, Option.map_some', refOf_modifyAt_setItem]
        · rw [lookup_setEntry_of_ne _ _ (Ne.symm h)]
    | _ => rfl

theorem descend_modifyAt_setCount (x : PdfObject) : ∀ (q : List String), "/Count" ∉ q →
    ∀ (o : PdfObject) (p : List String),
      ((o.modifyAt p (·.setItem "/Count" x)).descend q).bind parentStep =
        (o.descend q).bind parentStep
  | [], _, o, p => by simp only [descend_nil, Option.some_bind, parentStep_modifyAt_setCount]
  | k :: q, hq, o, p => by
    have hk : k ≠ "/Count" := fun h => hq (h ▸ List.mem_cons_self _ _)
    have hq' : "/Count" ∉ q := fun h => hq (List.mem_cons_of_mem _ h)
    cases o with
    | dictionary es st =>
      cases p with
      | nil => simp only [modifyAt_nil, setItem_dictionary, descend, lookup_setEntry_of_ne _ _ hk]
      | cons k' p =>
        cases hk' : es.lookup k' with
        | none => simp only [modifyAt, hk']
        | some v =>
          simp only [modifyAt, hk', descend]
          by_cases h : k = k'
          · subst h
            simp only [lookup_setEntry_self, hk', Option.some_bind,
              descend_modifyAt_setCount x q hq' v p]
          · rw [lookup_setEntry_of_ne _ _ h]
    | _ => cases p <;> rfl

end PdfObject

namespace Objects

theorem parentGet_eq (objs : Objects) (l : Loc) :
    objs.parentGet l = match (objs.objectAt l).bind PdfObject.parentStep with
      | none => .ok none
      | some (some r) => (objs.getObject r).map fun _ => some (Loc.top r)
      | some none => .ok (some (l.child "/Parent")) := by
  unfold parentGet
  rcases objs.objectAt l with _ | o
  · rfl
  · cases o with
    | dictionary es st =>
      simp only [Option.some_bind, PdfObject.parentStep]
      rcases es.lookup "/Parent" with _ | v
      · rfl
      · cases v <;> rfl
    | _ => rfl

theorem getObject_modifyAt_map_const {γ : Type} (objs : Objects) (l : Loc)
    (f : PdfObject → PdfObject) (r : Reference) (c : γ) :
    ((objs.modifyAt l f).getObject r).map (fun _ => c) = (objs.getObject r).map fun _ => c := by
  simp only [getObject, get?_modifyAt]
  by_cases hr : r = l.ref
  · rw [if_pos hr]
    cases objs.get? r <;> rfl
  · rw [if_neg hr]

/-- Raising a `/Count` leaves what `parent.get('/Parent')` gives at every location reached by
keys other than `/Count`. -/
theorem parentGet_raiseCount (objs : Objects) (l l' : Loc) (x : PdfObject)
    (h : "/Count" ∉ l'.path) :
    (objs.modifyAt l (·.setItem "/Count" x)).parentGet l' = objs.parentGet l' := by
  have hstep : ((objs.modifyAt l (·.setItem "/Count" x)).objectAt l').bind PdfObject.parentStep =
      (objs.objectAt l').bind PdfObject.parentStep := by
    simp only [objectAt, get?_modifyAt]
    split
    · cases objs.get? l'.ref with
      | none => rfl
      | some o =>
        simp only [Option.map_some', Option.some_bind]
        exact PdfObject.descend_modifyAt_setCount x l'.path h o l.path
    · rfl
  rw [parentGet_eq, parentGet_eq, hstep]
  split
  · rfl
  · exact getObject_modifyAt_map_const _ _ _ _ _
  · rfl

theorem parentGet_path {objs : Objects} {l l' : Loc} (h : objs.parentGet l = .ok (some l'))
    (hl : "/Count" ∉ l.path) : "/Count" ∉ l'.path := by
  rw [parentGet_eq] at h
  split at h
  · cases h
  · obtain ⟨_, -, he⟩ := exists_of_map_eq_ok h
    cases he
    simp [Loc.top]
  · cases h
    simp [Loc.child, hl]

end Objects

/-- `ls` are the nodes `parent = parent.get('/Parent')` moves to from the node at `l`, one after
another, up to a node where it moves nowhere (it gives `None` or raises). -/
inductive ParentSteps (objs : Objects) : Loc → List Loc → Prop
  | last {l : Loc} : (∀ l', objs.parentGet l ≠ .ok (some l')) → ParentSteps objs l []
  | step {l l' : Loc} {ls : List Loc} : objs.parentGet l = .ok (some l') →
      ParentSteps objs l' ls → ParentSteps objs l (l' :: ls)

theorem ParentSteps.raiseCount {objs : Objects} (l₀ : Loc) (x : PdfObject) :
    ∀ {l : Loc} {ls : List Loc}, ParentSteps objs l ls → "/Count" ∉ l.path →
      ParentSteps (objs.modifyAt l₀ (·.setItem "/Count" x)) l ls
  | _, _, .last h, hl => .last fun l' => by
      rw [Objects.parentGet_raiseCount _ _ _ _ hl]; exact h l'
  | _, _, .step h hs, hl => .step (by rw [Objects.parentGet_raiseCount _ _ _ _ hl]; exact h)
      (hs.raiseCount l₀ x (Objects.parentGet_path h hl))

/-- The `/Count` loop ends, returning or raising, within one round per node of any finite chain
of `/Parent` steps from where it starts: no demand on `/Count`, on how `/Parent` is held, or on
the nodes being distinct. -/
theorem increaseCounts_ends : ∀ (ls : List Loc) (objs : Objects) (l : Loc),
    ParentSteps objs l ls → "/Count" ∉ l.path →
      ∀ fuel, ls.length < fuel → (increaseCounts fuel objs l).1 ≠ .outOfFuel
  | _, _, _, _, _, 0, hfuel => absurd hfuel (Nat.not_lt_zero _)
  | ls, objs, l, hs, hl, fuel + 1, hfuel => by
    cases hc : objs.countAt l with
    | error e => simp only [increaseCounts, hc]; nofun
    | ok count =>
      simp only [increaseCounts, hc, Objects.parentGet_raiseCount _ _ _ _ hl]
      cases hs with
      | last hend =>
        split
        · nofun
        · nofun
        · rename_i l' hp
          exact absurd hp (hend l')
      | @step _ l' ls hp hrest =>
        simp only [hp]
        exact increaseCounts_ends ls _ l' (hrest.raiseCount l _ (Objects.parentGet_path hp hl))
          (Objects.parentGet_path hp hl) fuel (by simp only [List.length_cons] at hfuel; omega)

/-- In objects holding the frames `ctx` around the `/Pages` node `c`, the `/Parent` links from
`c` run through the frames, innermost first, and stop at the root. -/
theorem parentChain_of_ctx {objs : Objects} :
    ∀ (ctx : List Frame) {c : Reference} {kr : Option Reference} {n : Nat}
      {items : List PdfObject}, objs.PagesNode (holeParent none ctx) c kr n items →
      CtxRealizes objs none ctx c n → ParentChain objs (c :: ctx.map Frame.ref)
  | [], _, _, _, _, ⟨_, _, hg, _, hp, hc, _⟩, _ =>
    .last hg ((Objects.countAt_top hg _).mpr hc) hp
  | _ :: fs, _, _, _, _, ⟨_, _, hg, _, hp, hc, _⟩, ⟨hf, _, hctx⟩ =>
    .cons hg ((Objects.countAt_top hg _).mpr hc) hp (parentChain_of_ctx fs hf hctx)

end PyHanko
