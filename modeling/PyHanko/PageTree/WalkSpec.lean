import PyHanko.PageTree.Tree
import PyHanko.PageTree.Walk

/-!
# The walk finds the page

On a well-formed tree `_walk_page_tree(page_ix, …)` with `0 ≤ page_ix < /Count` lands on the
`page_ix`-th leaf: `find_page_for_modification` returns it, `find_page_container` returns the
`/Pages` node holding it and its position there, and both return the `/Resources` of the
deepest node on the way that has one. Any other index is refused before the descent.

The proof follows the code: one lemma for each kind of kid the loop meets, the loop by
induction over the kids, the recursion by induction over the tree.
-/

namespace PyHanko

set_option autoImplicit false

open PageTree

namespace Objects

/-- The stored `/Resources` of the node at `r`, if it has one. -/
def resourcesOf (objs : Objects) (r : Reference) : Option PdfObject :=
  match objs.get? r with
  | some (.dictionary es _) => es.lookup "/Resources"
  | _ => none

/-- `last_rsrc_dict` once the walk has passed the nodes of `path`, root first: each node's own
`/Resources` replaces the value inherited so far. -/
def inheritResources (objs : Objects) (init : PdfObject) (path : List Reference) : PdfObject :=
  path.foldl (fun acc r => (objs.resourcesOf r).getD acc) init

/-- The stored `/Resources` of the deepest node of `path` (listed root first) that has one. -/
def deepestResources (objs : Objects) (path : List Reference) : Option PdfObject :=
  path.reverse.findSome? objs.resourcesOf

theorem inheritResources_eq (objs : Objects) (init : PdfObject) (path : List Reference) :
    objs.inheritResources init path = (objs.deepestResources path).getD init := by
  induction path using List.reverseRecOn with
  | nil => rfl
  | append_singleton path r ih =>
    simp only [inheritResources, deepestResources, List.foldl_append, List.foldl_cons,
      List.foldl_nil, List.reverse_append, List.reverse_cons, List.reverse_nil, List.nil_append,
      List.singleton_append, List.findSome?_cons] at ih ⊢
    rw [ih]
    cases objs.resourcesOf r <;> rfl

theorem inheritResources_cons_of_resourcesOf (objs : Objects) {init init' : PdfObject}
    {r : Reference} (h : objs.resourcesOf r = none → init = init') (path : List Reference) :
    objs.inheritResources init (r :: path) = objs.inheritResources init' (r :: path) := by
  simp only [inheritResources, List.foldl_cons]
  cases hr : objs.resourcesOf r with
  | none => rw [h hr]
  | some v => rfl

end Objects

/-- In `t`, the `k`-th kid of the `/Pages` node `c` is the leaf `leaf`, and `path` lists the
`/Pages` nodes from the root down to `c`. -/
def PageTree.PathTo (t : PageTree) (path : List Reference) (c : Reference) (k : Nat)
    (leaf : Reference) : Prop :=
  ∃ ctx kr kids, t = plug ctx (.pages c kr kids) ∧ kids[k]? = some (.page leaf) ∧
    path = ctxPath ctx c

/-- What the walk returns once it has found the leaf `leaf`, the `k`-th kid of `c`, after
passing the `/Pages` nodes `path` with the resources `init` inherited from above. -/
def foundLocation (objs : Objects) (retrieveParent : Bool) (init : PdfObject)
    (path : List Reference) (c : Reference) (k : Nat) (leaf : Reference) : PageLocation :=
  if retrieveParent then .container c k (objs.inheritResources init path) c
  else .page leaf (objs.inheritResources init (path ++ [leaf]))

/-- The walks below `t` for the leaf at `rel`, `o true` with `retrieve_parent` and `o false`
without, both reach that leaf, at one position. -/
def WalkFinds (objs : Objects) (init : PdfObject) (t : PageTree) (rel : Nat)
    (o : Bool → Outcome PageLocation) : Prop :=
  ∃ ctx c kr kids k leaf, t = plug ctx (.pages c kr kids) ∧ kids[k]? = some (.page leaf) ∧
    (ctxLeft ctx).length + (leavesList (kids.take k)).length = rel ∧
    ∀ rp, o rp = .ok (foundLocation objs rp init (ctxPath ctx c) c k leaf)

@[simp] theorem PdfObject.rawGetOr_dictionary (es : Entries) (st : Option (List UInt8))
    (k : String) (d : PdfObject) :
    (PdfObject.dictionary es st).rawGetOr k d = .ok ((es.lookup k).getD d) := by
  simp only [PdfObject.rawGetOr, PdfObject.rawGet_dictionary]
  cases es.lookup k <;> rfl

theorem Objects.resourcesOf_of_get {objs : Objects} {r : Reference} {es : Entries}
    {st : Option (List UInt8)} (h : objs.get? r = some (.dictionary es st)) :
    objs.resourcesOf r = es.lookup "/Resources" := by
  simp [Objects.resourcesOf, h]

/-! ### One step of the loop -/

section Steps

variable {objs : Objects} {pageIx : Int} {rp : Bool} {pr : Reference} {res : PdfObject}
  {prev : Reference} {descend : Int → Reference → Outcome PageLocation}

theorem walkKids_page {p : Option Reference} {leaf : Reference} (h : objs.PageNode p leaf)
    (cur : Int) (j : Nat) (rest : List PdfObject) :
    walkKids objs pageIx rp pr res prev descend cur j (.indirect leaf :: rest) =
      if cur = pageIx then
        .ok (if rp then .container pr j res prev else .page leaf ((objs.resourcesOf leaf).getD res))
      else walkKids objs pageIx rp pr res prev descend (cur + 1) (j + 1) rest := by
  obtain ⟨es, st, hg, ⟨v, hv, hs⟩, -⟩ := h
  have hget : objs.getObject leaf = .ok (.dictionary es st) := Objects.getObject_eq_ok.mpr hg
  simp only [walkKids, assertIndirect_indirect, Outcome.lift_ok, Outcome.ok_bind, hget, hv, hs,
    Objects.resourcesOf_of_get hg]
  split_ifs <;> simp_all

theorem walkKids_pages {p : Option Reference} {r : Reference} {kr : Option Reference} {n : Nat}
    {items : List PdfObject} (h : objs.PagesNode p r kr n items) (cur : Int) (j : Nat)
    (rest : List PdfObject) :
    walkKids objs pageIx rp pr res prev descend cur j (.indirect r :: rest) =
      if cur ≤ pageIx ∧ pageIx < cur + n then descend cur r
      else walkKids objs pageIx rp pr res prev descend (cur + n) (j + 1) rest := by
  obtain ⟨es, st, hg, ⟨v, hv, hs⟩, -, hc, -⟩ := h
  have hget : objs.getObject r = .ok (.dictionary es st) := Objects.getObject_eq_ok.mpr hg
  simp only [walkKids, assertIndirect_indirect, Outcome.lift_ok, Outcome.ok_bind, hget, hv, hs, hc,
    if_true]

theorem recurse_succ {p : Option Reference} {r : Reference} {kr : Option Reference} {n : Nat}
    {items : List PdfObject} (h : objs.PagesNode p r kr n items) (fuel : Nat) (first : Int)
    (init : PdfObject) :
    recurse objs pageIx rp (fuel + 1) first r init prev =
      walkKids objs pageIx rp r (objs.inheritResources init [r]) prev
        (fun cur kid => recurse objs pageIx rp fuel cur kid (objs.inheritResources init [r]) kid)
        first 0 items := by
  obtain ⟨es, st, hg, -, -, -, hk⟩ := h
  have hget : objs.getObject r = .ok (.dictionary es st) := Objects.getObject_eq_ok.mpr hg
  have hres : objs.inheritResources init [r] = (es.lookup "/Resources").getD init := by
    simp [Objects.inheritResources, Objects.resourcesOf_of_get hg]
  rw [hres]
  cases kr with
  | none =>
    simp only [Objects.KidsAt] at hk
    simp [recurse, hget, hk, Objects.resolve]
  | some k =>
    obtain ⟨hk, hka⟩ := hk
    have hgk : objs.getObject k = .ok (.array items) := Objects.getObject_eq_ok.mpr hka
    simp [recurse, hget, hk, Objects.resolve, hgk]

end Steps

/-! ### The loop and the recursion -/

theorem ctxLeft_append_singleton (ctx : List Frame) (f : Frame) :
    ctxLeft (ctx ++ [f]) = leavesList f.left ++ ctxLeft ctx := by
  induction ctx with
  | nil => simp [ctxLeft]
  | cons g gs ih => simp [ctxLeft, ih]

theorem ctxPath_append_singleton (ctx : List Frame) (f : Frame) (c : Reference) :
    ctxPath (ctx ++ [f]) c = f.ref :: ctxPath ctx c := by
  simp [ctxPath]

theorem ctxPath_cons (f : Frame) (fs : List Frame) (c : Reference) :
    ctxPath (f :: fs) c = ctxPath fs f.ref ++ [c] := by
  simp [ctxPath]

theorem ctxPath_eq_cons_ref (ctx : List Frame) (c : Reference) (kr : Option Reference)
    (kids : List PageTree) : ∃ rest, ctxPath ctx c = (plug ctx (.pages c kr kids)).ref :: rest := by
  induction ctx generalizing c kr kids with
  | nil => exact ⟨[], rfl⟩
  | cons f fs ih =>
    obtain ⟨rest, h⟩ := ih f.ref f.kidsRef (f.left ++ .pages c kr kids :: f.right)
    exact ⟨rest ++ [c], by rw [ctxPath_cons, h]; rfl⟩

theorem getElem?_leaves_plug {ctx : List Frame} {c : Reference} {kr : Option Reference}
    {kids : List PageTree} {k : Nat} {leaf : Reference} (hk : kids[k]? = some (.page leaf)) :
    (leaves (plug ctx (.pages c kr kids)))[(ctxLeft ctx).length +
      (leavesList (kids.take k)).length]? = some leaf := by
  obtain ⟨hlt, hget⟩ := List.getElem?_eq_some_iff.mp hk
  have hsplit : kids = kids.take k ++ .page leaf :: kids.drop (k + 1) := by
    rw [← hget, ← List.drop_eq_getElem_cons hlt, List.take_append_drop]
  generalize kids.take k = A, kids.drop (k + 1) = B at hsplit
  subst hsplit
  rw [leaves_plug, leaves_pages, leavesList_append, leavesList_cons, leaves_page,
    List.append_assoc, List.getElem?_append_right (by omega), Nat.add_sub_cancel_left,
    List.append_assoc, List.getElem?_append_right (le_refl _), Nat.sub_self]
  simp

theorem WalkFinds.here {objs : Objects} (init : PdfObject) (r : Reference)
    (kr : Option Reference) (done rest : List PageTree) (leaf : Reference) :
    WalkFinds objs init (.pages r kr (done ++ .page leaf :: rest)) (leavesList done).length
      (fun rp => .ok (if rp then .container r done.length (objs.inheritResources init [r]) r
        else .page leaf ((objs.resourcesOf leaf).getD (objs.inheritResources init [r])))) := by
  refine ⟨[], r, kr, done ++ .page leaf :: rest, done.length, leaf, rfl,
    by rw [List.getElem?_append_right (le_refl _)]; simp, by simp [ctxLeft], fun rp => ?_⟩
  cases rp <;> simp [foundLocation, ctxPath, Objects.inheritResources]

theorem WalkFinds.up {objs : Objects} {init : PdfObject} {r : Reference}
    {kr : Option Reference} {done rest : List PageTree} {c : PageTree} {rel : Nat}
    {o : Bool → Outcome PageLocation} (h : WalkFinds objs (objs.inheritResources init [r]) c rel o) :
    WalkFinds objs init (.pages r kr (done ++ c :: rest)) ((leavesList done).length + rel) o := by
  obtain ⟨ctx, c', kr', kids', k, leaf, hc, hk, hrel, ho⟩ := h
  refine ⟨ctx ++ [⟨r, kr, done, rest⟩], c', kr', kids', k, leaf, ?_, hk, ?_, fun rp => ?_⟩
  · rw [plug_append, ← hc]; rfl
  · rw [ctxLeft_append_singleton, List.length_append]; dsimp only; omega
  · rw [ho rp, ctxPath_append_singleton]
    cases rp <;> simp [foundLocation, Objects.inheritResources]

theorem WalkFinds.init_of_root {objs : Objects} {init init' : PdfObject}
    {t : PageTree} {rel : Nat} {o : Bool → Outcome PageLocation} (h : WalkFinds objs init t rel o)
    (hinit : objs.resourcesOf t.ref = none → init = init') : WalkFinds objs init' t rel o := by
  obtain ⟨ctx, c, kr, kids, k, leaf, hc, hk, hrel, ho⟩ := h
  refine ⟨ctx, c, kr, kids, k, leaf, hc, hk, hrel, fun rp => ?_⟩
  obtain ⟨rest, hpath⟩ := ctxPath_eq_cons_ref ctx c kr kids
  rw [← hc] at hpath
  rw [ho rp, hpath]
  have := Objects.inheritResources_cons_of_resourcesOf objs hinit
  cases rp <;> simp only [foundLocation, if_true, if_false, Bool.false_eq_true, List.cons_append, this]

/-- The loop over the kids `done ++ rest` of a realized node, from the first kid of `rest`: it
finds the leaf at `rel` when that leaf lies in `rest`, provided the descent finds leaves in the
`/Pages` kids. -/
theorem walkKids_finds {objs : Objects} {init : PdfObject} {first : Int} {rel : Nat}
    {r : Reference} {kr : Option Reference} {kids : List PageTree}
    (hkids : ∀ c ∈ kids, Realizes objs (some r) c)
    {descend : Bool → Int → Reference → Outcome PageLocation}
    (hdesc : ∀ c ∈ kids, ∀ cr ckr ckids, c = .pages cr ckr ckids → ∀ (cur : Int) (rel' : Nat),
      rel' < (leaves c).length → first + rel = cur + rel' →
      WalkFinds objs (objs.inheritResources init [r]) c rel' (fun rp => descend rp cur cr)) :
    ∀ done rest, kids = done ++ rest → (leavesList done).length ≤ rel →
      rel < (leavesList done).length + (leavesList rest).length →
      WalkFinds objs init (.pages r kr kids) rel
        (fun rp => walkKids objs (first + rel) rp r (objs.inheritResources init [r]) r (descend rp)
          (first + (leavesList done).length) done.length (kidRefs rest)) := by
  intro done rest
  induction rest generalizing done with
  | nil => intro _ h₁ h₂; simp at h₂; omega
  | cons c rest ih =>
    intro hsplit hlo hhi
    have hc : c ∈ kids := by simp [hsplit]
    have hnext := ih (done ++ [c]) (by simp [hsplit])
    simp only [leavesList_append, leavesList_cons, leavesList_nil, List.append_nil,
      List.length_append, List.length_singleton] at hnext hhi
    cases c with
    | page leaf =>
      obtain hn := (hkids _ hc)
      cases hn with
      | page hn =>
      simp only [kidRefs, List.map_cons, ref] at hnext ⊢
      simp only [walkKids_page hn]
      by_cases heq : first + ((leavesList done).length : Int) = first + rel
      · simp only [if_pos heq]
        have hrel : rel = (leavesList done).length := by omega
        subst hrel hsplit
        exact WalkFinds.here init r kr done rest leaf
      · simp only [if_neg heq]
        simp only [leaves_page, List.length_singleton, Int.ofNat_add, Int.ofNat_one,
          ← Int.add_assoc] at hnext hhi
        exact hnext (by omega) (by omega)
    | pages cr ckr ckids =>
      obtain hn := (hkids _ hc)
      cases hn with
      | pages hn _ =>
      simp only [kidRefs, List.map_cons, ref] at hnext ⊢
      simp only [walkKids_pages hn]
      by_cases hin : first + ((leavesList done).length : Int) ≤ first + rel ∧
          first + rel < first + (leavesList done).length + (leavesList ckids).length
      · simp only [if_pos hin]
        subst hsplit
        obtain ⟨rel', rfl⟩ : ∃ rel', rel = (leavesList done).length + rel' :=
          ⟨rel - (leavesList done).length, by omega⟩
        exact WalkFinds.up (hdesc _ hc cr ckr ckids rfl _ rel' (by simp; omega) (by push_cast; omega))
      · simp only [if_neg hin]
        simp only [leaves_pages, Int.ofNat_add, ← Int.add_assoc] at hnext hhi
        exact hnext (by omega) (by omega)

/-- `_recurse` on a realized `/Pages` node with enough fuel finds the leaf at `rel` below it. -/
theorem recurse_finds {objs : Objects} {p : Option Reference} {t : PageTree} (h : Realizes objs p t) :
    ∀ {r kr kids}, t = .pages r kr kids → ∀ fuel, depth t ≤ fuel → ∀ (first : Int) (rel : Nat)
      (init : PdfObject), rel < (leaves t).length →
      WalkFinds objs init t rel (fun rp => recurse objs (first + rel) rp fuel first r init r) := by
  induction h with
  | page _ => intro _ _ _ h; cases h
  | @pages parent r kr kids hn hkids ih =>
    intro r' kr' kids' heq fuel hfuel first rel init hrel
    cases heq
    obtain ⟨f, rfl⟩ : ∃ f, fuel = f + 1 := ⟨fuel - 1, by simp at hfuel; omega⟩
    simp only [recurse_succ hn]
    have := @walkKids_finds objs init first rel r kr kids hkids
      (fun rp cur kid => recurse objs (first + rel) rp f cur kid
        (objs.inheritResources init [r]) kid)
      (fun c hc cr ckr ckids hceq cur rel' hrel' hix => by
        simp only [hix]
        exact ih c hc hceq f (by have := depth_le_depthList hc; simp at hfuel; omega) cur rel' _
          hrel')
      [] kids rfl (by simp) (by simpa using hrel)
    simpa using this

/-! ### The whole walk -/

/-- `try: v = node[key] except KeyError: v = default` on a dictionary never raises: resolving
a reference can only fail with `KeyError`. -/
theorem Objects.getItemOr_dictionary (objs : Objects) (es : Entries) (st : Option (List UInt8))
    (k : String) (d : PdfObject) :
    ∃ v, objs.getItemOr (.dictionary es st) k d = .ok v ∧ (es.lookup k = none → v = d) := by
  simp only [Objects.getItemOr, Objects.getItem]
  cases hl : es.lookup k with
  | none => exact ⟨d, rfl, fun _ => rfl⟩
  | some raw =>
    cases raw with
    | indirect r =>
      cases hg : objs.get? r with
      | none => exact ⟨d, by simp [Objects.resolve, Objects.getObject, hg], by simp⟩
      | some o => exact ⟨o, by simp [Objects.resolve, Objects.getObject, hg], by simp⟩
    | _ => exact ⟨_, rfl, by simp⟩

theorem WalkFinds.pathTo {objs : Objects} {init : PdfObject} {t : PageTree}
    {rel : Nat} {o : Bool → Outcome PageLocation} (h : WalkFinds objs init t rel o) :
    ∃ path c k leaf, t.PathTo path c k leaf ∧ (leaves t)[rel]? = some leaf ∧
      ∀ rp, o rp = .ok (foundLocation objs rp init path c k leaf) := by
  obtain ⟨ctx, c, kr, kids, k, leaf, hc, hk, hrel, ho⟩ := h
  refine ⟨ctxPath ctx c, c, k, leaf, ⟨ctx, kr, kids, hc, hk, rfl⟩, ?_, ho⟩
  rw [← hrel, hc]
  exact getElem?_leaves_plug hk

/-- `_walk_page_tree` on a well-formed tree: an index below the root's `/Count` leads to its
leaf, any other is refused before the descent. -/
theorem walkPageTree_finds {w : BasePdfFileWriter} {t : PageTree} (hw : WellFormed w t)
    {fuel : Nat} (hfuel : t.depth ≤ fuel) (pageIx : Int) :
    (0 ≤ pageIx ∧ pageIx < (leaves t).length →
      WalkFinds w.objects .emptyDict t pageIx.toNat (walkPageTree fuel w pageIx)) ∧
    (¬ (0 ≤ pageIx ∧ pageIx < (leaves t).length) → ∀ rp,
      walkPageTree fuel w pageIx rp = .error (.valueError "Page index out of range")) := by
  obtain ⟨es, st, hcat, hpages⟩ := hw.catalog
  obtain ⟨kr, kids, ht⟩ := hw.root
  have hreal := hw.realizes
  rw [ht] at hreal
  obtain ⟨⟨esR, stR, hgR, -, -, hcount, -⟩, -⟩ := Realizes.pages_iff.mp hreal
  have hroot : w.objects.getObject w.root = .ok (.dictionary es st) :=
    Objects.getObject_eq_ok.mpr hcat
  have hgetR : w.objects.getObject t.ref = .ok (.dictionary esR stR) :=
    Objects.getObject_eq_ok.mpr hgR
  -- `root_resources`: the resolved `/Resources` of the root, or an empty dictionary
  obtain ⟨rootRes, hres, hresNone⟩ := w.objects.getItemOr_dictionary esR stR "/Resources" .emptyDict
  rw [← Objects.resourcesOf_of_get hgR] at hresNone
  have hcount' : (leavesList kids).length = (leaves t).length := by rw [ht]; simp
  rw [hcount'] at hcount
  have hwalk : ∀ rp, walkPageTree fuel w pageIx rp =
      if 0 ≤ pageIx ∧ pageIx < (leaves t).length then
        recurse w.objects pageIx rp fuel 0 t.ref rootRes t.ref
      else .error (.valueError "Page index out of range") := by
    intro rp
    simp only [walkPageTree, hroot, PdfObject.rawGet_dictionary, hpages, Outcome.lift_ok,
      Outcome.ok_bind, assertIndirect_indirect, hgetR, hres, hcount, indexInRange]
    by_cases hin : 0 ≤ pageIx ∧ pageIx < (leaves t).length <;> simp [hin]
  refine ⟨fun hin => ?_, fun hout rp => by rw [hwalk, if_neg hout]⟩
  rw [show walkPageTree fuel w pageIx = fun rp => recurse w.objects pageIx rp fuel 0 t.ref rootRes t.ref
    from funext fun rp => by rw [hwalk, if_pos hin]]
  have hdepth : depth (pages t.ref kr kids) ≤ fuel := by rw [ht] at hfuel; exact hfuel
  have hlen : pageIx.toNat < (leaves (pages t.ref kr kids)).length := by
    rw [leaves_pages, hcount']; omega
  have hrec := recurse_finds hreal rfl fuel hdepth 0 pageIx.toNat rootRes hlen
  rw [← ht, show (0 : Int) + (pageIx.toNat : Int) = pageIx by omega] at hrec
  exact hrec.init_of_root hresNone

/-! ### The two finders -/

/-- A writer holding a one-page document, as `PdfFileWriter()` followed by one `insert_page`
leaves it: the catalog 1, the info dictionary 2, the page tree root 3 and the page 4. -/
def onePageWriter : BasePdfFileWriter :=
  { pdfFileWriter (.array []) with
    objects := ⟨[(⟨0, 1⟩, .dictionary [("/Type", .name "/Catalog"), ("/Pages", .indirect ⟨0, 3⟩)] none),
      (⟨0, 2⟩, .dictionary [("/Producer", .string "pdfstamp")] none),
      (⟨0, 3⟩, .dictionary [("/Type", .name "/Pages"), ("/Count", .number 1),
        ("/Kids", .array [.indirect ⟨0, 4⟩])] none),
      (⟨0, 4⟩, .dictionary [("/Type", .name "/Page"), ("/Parent", .indirect ⟨0, 3⟩)] none)],
      by decide⟩
    lastobjId := 4 }

/-- The page tree of `onePageWriter`. -/
def onePageTree : PageTree := .pages ⟨0, 3⟩ none [.page ⟨0, 4⟩]

theorem wellFormed_onePage : WellFormed onePageWriter onePageTree where
  catalog := ⟨[("/Type", .name "/Catalog"), ("/Pages", .indirect ⟨0, 3⟩)], none, rfl, rfl⟩
  root := ⟨none, [.page ⟨0, 4⟩], rfl⟩
  realizes := .pages ⟨[("/Type", .name "/Pages"), ("/Count", .number 1),
      ("/Kids", .array [.indirect ⟨0, 4⟩])], none, rfl, ⟨.name "/Pages", rfl, rfl⟩, rfl, rfl, rfl⟩
    fun c hc => by
      simp only [List.mem_singleton] at hc
      subst hc
      exact .page ⟨[("/Type", .name "/Page"), ("/Parent", .indirect ⟨0, 3⟩)], none, rfl,
        ⟨.name "/Page", rfl, rfl⟩, rfl⟩
  nodup := by decide

/-- `find_page_for_modification` and `find_page_container` on a well-formed tree with leaves
`L`: for `0 ≤ page_ix < len L` the first returns `L[page_ix]` and the second the `/Pages` node
holding it, its position there, and that node again as the node to mark; any other index
raises `ValueError('Page index out of range')`. -/
theorem findPage_locates_leaf {w : BasePdfFileWriter} {t : PageTree} (hw : WellFormed w t)
    {fuel : Nat} (hfuel : t.depth ≤ fuel) (pageIx : Int) :
    (0 ≤ pageIx ∧ pageIx < (leaves t).length →
      ∃ leaf, (leaves t)[pageIx.toNat]? = some leaf ∧
        (∃ rsrc, findPageForModification fuel w pageIx = .ok (.page leaf rsrc)) ∧
        ∃ path c k rsrc, t.PathTo path c k leaf ∧
          findPageContainer fuel w pageIx = .ok (.container c k rsrc c)) ∧
    (¬ (0 ≤ pageIx ∧ pageIx < (leaves t).length) →
      findPageForModification fuel w pageIx = .error (.valueError "Page index out of range") ∧
      findPageContainer fuel w pageIx = .error (.valueError "Page index out of range")) := by
  obtain ⟨hin, hout⟩ := walkPageTree_finds hw hfuel pageIx
  refine ⟨fun h => ?_, fun h => ⟨hout h false, hout h true⟩⟩
  obtain ⟨path, c, k, leaf, hpath, hleaf, ho⟩ := (hin h).pathTo
  exact ⟨leaf, hleaf, ⟨_, ho false⟩, path, c, k, _, hpath, ho true⟩

theorem findPage_locates_leaf_onePage :
    WellFormed onePageWriter onePageTree ∧ onePageTree.depth ≤ 1 ∧
    ((0 ≤ (0 : Int) ∧ (0 : Int) < (leaves onePageTree).length →
      ∃ leaf, (leaves onePageTree)[(0 : Int).toNat]? = some leaf ∧
        (∃ rsrc, findPageForModification 1 onePageWriter 0 = .ok (.page leaf rsrc)) ∧
        ∃ path c k rsrc, onePageTree.PathTo path c k leaf ∧
          findPageContainer 1 onePageWriter 0 = .ok (.container c k rsrc c)) ∧
    (¬ (0 ≤ (0 : Int) ∧ (0 : Int) < (leaves onePageTree).length) →
      findPageForModification 1 onePageWriter 0 = .error (.valueError "Page index out of range") ∧
      findPageContainer 1 onePageWriter 0 = .error (.valueError "Page index out of range"))) :=
  ⟨wellFormed_onePage, by decide, findPage_locates_leaf wellFormed_onePage (by decide) 0⟩

/-- The resources both finders return on a well-formed tree: the stored `/Resources` of the
deepest node on the path from the root to the page that has one, the page itself included for
`find_page_for_modification` and excluded for `find_page_container`; an empty dictionary when
no such node has one. -/
theorem findPage_inherits_resources {w : BasePdfFileWriter} {t : PageTree} (hw : WellFormed w t)
    {fuel : Nat} (hfuel : t.depth ≤ fuel) {pageIx : Int}
    (hix : 0 ≤ pageIx ∧ pageIx < (leaves t).length) :
    ∃ path c k leaf, t.PathTo path c k leaf ∧ (leaves t)[pageIx.toNat]? = some leaf ∧
      findPageForModification fuel w pageIx =
        .ok (.page leaf ((w.objects.deepestResources (path ++ [leaf])).getD .emptyDict)) ∧
      findPageContainer fuel w pageIx =
        .ok (.container c k ((w.objects.deepestResources path).getD .emptyDict) c) := by
  obtain ⟨path, c, k, leaf, hpath, hleaf, ho⟩ := ((walkPageTree_finds hw hfuel pageIx).1 hix).pathTo
  refine ⟨path, c, k, leaf, hpath, hleaf, ?_, ?_⟩
  · rw [findPageForModification, ho false]; simp [foundLocation, Objects.inheritResources_eq]
  · rw [findPageContainer, ho true]; simp [foundLocation, Objects.inheritResources_eq]

theorem findPage_inherits_resources_onePage :
    WellFormed onePageWriter onePageTree ∧ onePageTree.depth ≤ 1 ∧
    (0 ≤ (0 : Int) ∧ (0 : Int) < (leaves onePageTree).length) ∧
    ∃ path c k leaf, onePageTree.PathTo path c k leaf ∧
      (leaves onePageTree)[(0 : Int).toNat]? = some leaf ∧
      findPageForModification 1 onePageWriter 0 =
        .ok (.page leaf ((onePageWriter.objects.deepestResources (path ++ [leaf])).getD .emptyDict)) ∧
      findPageContainer 1 onePageWriter 0 =
        .ok (.container c k ((onePageWriter.objects.deepestResources path).getD .emptyDict) c) :=
  ⟨wellFormed_onePage, by decide, by decide,
    findPage_inherits_resources wellFormed_onePage (by decide) (by decide)⟩

end PyHanko
