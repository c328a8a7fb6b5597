import PyHanko.Writer.Basic

/-!
# Page trees and the objects that hold them

`PageTree` is the page tree as a reader sees it: `/Page` leaves and `/Pages` nodes, each an
indirect object, a `/Pages` node with its `/Kids` held directly or behind one reference.
`Realizes objs parent t` says the writer's objects hold `t` below `parent`: every node has
the right `/Type` and `/Parent`, and every `/Pages` node lists its kids and counts its leaves.
`WellFormed w t` says `t` is the tree under the catalog's `/Pages`.

A position in a tree is a zipper: `plug ctx s` rebuilds the tree from the subtree `s` and the
frames `ctx` around it, innermost first. The innermost-first order is the order in which
`insert_page` follows `/Parent` links, and `ctxPath` gives the top-down order of the walk.
-/

namespace PyHanko

set_option autoImplicit false

/-- A page tree: `/Page` leaves and `/Pages` nodes; `kidsRef` is the reference through which a
node holds its `/Kids` array, if it does not hold it directly. -/
inductive PageTree where
  | page (ref : Reference)
  | pages (ref : Reference) (kidsRef : Option Reference) (kids : List PageTree)
  deriving Repr

namespace PageTree

/-- The node's own reference. -/
def ref : PageTree → Reference
  | page r => r
  | pages r _ _ => r

/-- How a `/Kids` array refers to the kids. -/
def kidRefs (kids : List PageTree) : List PdfObject := kids.map fun c => .indirect c.ref

mutual
/-- The `/Page` leaves, left to right. -/
def leaves : PageTree → List Reference
  | page r => [r]
  | pages _ _ kids => leavesList kids
/-- The leaves of a list of kids. -/
def leavesList : List PageTree → List Reference
  | [] => []
  | t :: ts => leaves t ++ leavesList ts
end

mutual
/-- Every node's reference, in pre-order. -/
def nodes : PageTree → List Reference
  | page r => [r]
  | pages r _ kids => r :: nodesList kids
/-- The nodes of a list of kids. -/
def nodesList : List PageTree → List Reference
  | [] => []
  | t :: ts => nodes t ++ nodesList ts
end

mutual
/-- The references through which `/Pages` nodes hold their `/Kids`. -/
def kidsKeys : PageTree → List Reference
  | page _ => []
  | pages _ kr kids => kr.toList ++ kidsKeysList kids
/-- The `/Kids` references of a list of kids. -/
def kidsKeysList : List PageTree → List Reference
  | [] => []
  | t :: ts => kidsKeys t ++ kidsKeysList ts
end

mutual
/-- The number of `/Pages` nodes on the longest downward path: the calls of `_recurse` a walk
can need. -/
def depth : PageTree → Nat
  | page _ => 0
  | pages _ _ kids => depthList kids + 1
/-- The largest depth among the kids. -/
def depthList : List PageTree → Nat
  | [] => 0
  | t :: ts => max (depth t) (depthList ts)
end

@[simp] theorem leaves_page (r : Reference) : leaves (page r) = [r] := by simp [leaves]

@[simp] theorem leaves_pages (r : Reference) (kr : Option Reference) (kids : List PageTree) :
    leaves (pages r kr kids) = leavesList kids := by simp [leaves]

@[simp] theorem leavesList_nil : leavesList [] = [] := by simp [leavesList]

@[simp] theorem leavesList_cons (t : PageTree) (ts : List PageTree) :
    leavesList (t :: ts) = leaves t ++ leavesList ts := by simp [leavesList]

@[simp] theorem leavesList_append (xs ys : List PageTree) :
    leavesList (xs ++ ys) = leavesList xs ++ leavesList ys := by
  induction xs with
  | nil => simp
  | cons x xs ih => simp [ih]

@[simp] theorem nodes_page (r : Reference) : nodes (page r) = [r] := by simp [nodes]

@[simp] theorem nodes_pages (r : Reference) (kr : Option Reference) (kids : List PageTree) :
    nodes (pages r kr kids) = r :: nodesList kids := by simp [nodes]

@[simp] theorem nodesList_nil : nodesList [] = [] := by simp [nodesList]

@[simp] theorem nodesList_cons (t : PageTree) (ts : List PageTree) :
    nodesList (t :: ts) = nodes t ++ nodesList ts := by simp [nodesList]

@[simp] theorem nodesList_append (xs ys : List PageTree) :
    nodesList (xs ++ ys) = nodesList xs ++ nodesList ys := by
  induction xs with
  | nil => simp
  | cons x xs ih => simp [ih]

@[simp] theorem kidsKeys_page (r : Reference) : kidsKeys (page r) = [] := by simp [kidsKeys]

@[simp] theorem kidsKeys_pages (r : Reference) (kr : Option Reference) (kids : List PageTree) :
    kidsKeys (pages r kr kids) = kr.toList ++ kidsKeysList kids := by simp [kidsKeys]

@[simp] theorem kidsKeysList_nil : kidsKeysList [] = [] := by simp [kidsKeysList]

@[simp] theorem kidsKeysList_cons (t : PageTree) (ts : List PageTree) :
    kidsKeysList (t :: ts) = kidsKeys t ++ kidsKeysList ts := by simp [kidsKeysList]

@[simp] theorem kidsKeysList_append (xs ys : List PageTree) :
    kidsKeysList (xs ++ ys) = kidsKeysList xs ++ kidsKeysList ys := by
  induction xs with
  | nil => simp
  | cons x xs ih => simp [ih]

@[simp] theorem depth_pages (r : Reference) (kr : Option Reference) (kids : List PageTree) :
    depth (pages r kr kids) = depthList kids + 1 := by simp [depth]

theorem mem_nodesList_iff {kids : List PageTree} {r : Reference} :
    r ∈ nodesList kids ↔ ∃ c ∈ kids, r ∈ c.nodes := by
  induction kids with
  | nil => simp
  | cons k ks ih => simp [ih]

theorem mem_kidsKeysList_iff {kids : List PageTree} {k : Reference} :
    k ∈ kidsKeysList kids ↔ ∃ c ∈ kids, k ∈ c.kidsKeys := by
  induction kids with
  | nil => simp
  | cons c cs ih => simp [ih]

theorem mem_leavesList_iff {kids : List PageTree} {r : Reference} :
    r ∈ leavesList kids ↔ ∃ c ∈ kids, r ∈ c.leaves := by
  induction kids with
  | nil => simp
  | cons c cs ih => simp [ih]

theorem mem_nodesList {c : PageTree} {kids : List PageTree} (h : c ∈ kids) :
    ∀ r ∈ c.nodes, r ∈ nodesList kids := by
  induction kids with
  | nil => cases h
  | cons k ks ih =>
    intro r hr
    rcases List.mem_cons.mp h with rfl | h
    · simp [hr]
    · simp [ih h r hr]

theorem mem_kidsKeysList {c : PageTree} {kids : List PageTree} (h : c ∈ kids) :
    ∀ k ∈ c.kidsKeys, k ∈ kidsKeysList kids := by
  induction kids with
  | nil => cases h
  | cons k ks ih =>
    intro r hr
    rcases List.mem_cons.mp h with rfl | h
    · simp [hr]
    · simp [ih h r hr]

@[simp] theorem depth_page (r : Reference) : depth (page r) = 0 := by simp [depth]

theorem depthList_append (xs ys : List PageTree) :
    depthList (xs ++ ys) = max (depthList xs) (depthList ys) := by
  induction xs with
  | nil => simp [depthList]
  | cons x xs ih =>
    show max (depth x) (depthList (xs ++ ys)) = max (max (depth x) (depthList xs)) _
    rw [ih, Nat.max_assoc]

theorem depth_le_depthList {c : PageTree} {kids : List PageTree} (h : c ∈ kids) :
    depth c ≤ depthList kids := by
  induction kids with
  | nil => cases h
  | cons k ks ih =>
    rcases List.mem_cons.mp h with rfl | h
    · simp [depthList]
    · simp only [depthList]; exact Nat.le_trans (ih h) (Nat.le_max_right _ _)

/-! ### Positions: frames and the zipper -/

/-- One level of context around a subtree: the `/Pages` node holding it, with the kids left
and right of it. -/
structure Frame where
  ref : Reference
  kidsRef : Option Reference
  left : List PageTree
  right : List PageTree

/-- The node a frame makes around `s`. -/
def Frame.fill (f : Frame) (s : PageTree) : PageTree := .pages f.ref f.kidsRef (f.left ++ s :: f.right)

/-- The tree the frames `ctx` (innermost first) make around `s`. -/
def plug : List Frame → PageTree → PageTree
  | [], s => s
  | f :: fs, s => plug fs (f.fill s)

/-- The leaves left of the hole. -/
def ctxLeft : List Frame → List Reference
  | [] => []
  | f :: fs => ctxLeft fs ++ leavesList f.left

/-- The leaves right of the hole. -/
def ctxRight : List Frame → List Reference
  | [] => []
  | f :: fs => leavesList f.right ++ ctxRight fs

/-- The nodes before the hole's, in pre-order. -/
def ctxPre : List Frame → List Reference
  | [] => []
  | f :: fs => ctxPre fs ++ f.ref :: nodesList f.left

/-- The nodes after the hole's, in pre-order. -/
def ctxPost : List Frame → List Reference
  | [] => []
  | f :: fs => nodesList f.right ++ ctxPost fs

/-- The `/Kids` references of the frames and their other kids. -/
def ctxKidsKeys : List Frame → List Reference
  | [] => []
  | f :: fs => f.kidsRef.toList ++ kidsKeysList f.left ++ kidsKeysList f.right ++ ctxKidsKeys fs

/-- The `/Pages` nodes from the root down to the node `c` the frames surround, top-down. -/
def ctxPath (ctx : List Frame) (c : Reference) : List Reference :=
  (ctx.map Frame.ref).reverse ++ [c]

@[simp] theorem plug_nil (s : PageTree) : plug [] s = s := rfl

@[simp] theorem plug_cons (f : Frame) (fs : List Frame) (s : PageTree) :
    plug (f :: fs) s = plug fs (f.fill s) := rfl

theorem plug_append (ctx : List Frame) (f : Frame) (s : PageTree) :
    plug (ctx ++ [f]) s = f.fill (plug ctx s) := by
  induction ctx generalizing s with
  | nil => rfl
  | cons g gs ih => exact ih _

theorem leaves_plug (ctx : List Frame) (s : PageTree) :
    leaves (plug ctx s) = ctxLeft ctx ++ leaves s ++ ctxRight ctx := by
  induction ctx generalizing s with
  | nil => simp [ctxLeft, ctxRight]
  | cons f fs ih => simp [ih, Frame.fill, ctxLeft, ctxRight]

theorem nodes_plug (ctx : List Frame) (s : PageTree) :
    nodes (plug ctx s) = ctxPre ctx ++ nodes s ++ ctxPost ctx := by
  induction ctx generalizing s with
  | nil => simp [ctxPre, ctxPost]
  | cons f fs ih => simp [ih, Frame.fill, ctxPre, ctxPost]

theorem depth_plug_ge (ctx : List Frame) (s : PageTree) :
    depth s + ctx.length ≤ depth (plug ctx s) := by
  induction ctx generalizing s with
  | nil => simp
  | cons f fs ih =>
    have hs : depth s + 1 ≤ depth (f.fill s) := by
      simp only [Frame.fill, depth_pages]
      have := depth_le_depthList (show s ∈ f.left ++ s :: f.right by simp)
      omega
    have := ih (f.fill s)
    simp only [plug_cons, List.length_cons]
    omega

theorem depth_plug_congr (ctx : List Frame) {s s' : PageTree} (h : depth s = depth s') :
    depth (plug ctx s) = depth (plug ctx s') := by
  induction ctx generalizing s s' with
  | nil => exact h
  | cons f fs ih =>
    exact ih (by simp only [Frame.fill, depth_pages, depthList_append, depthList, h])

end PageTree

/-! ### The objects holding a page tree -/

namespace Objects

open PageTree

/-- `node['/Type']` compares equal to the text `s`. -/
def TypeIs (objs : Objects) (node : PdfObject) (s : String) : Prop :=
  ∃ v, objs.getItem node "/Type" = .ok v ∧ v.strValue? = some s

/-- A node's `/Kids` lists `items`: held directly when `kr = none`, else through `kr`. -/
def KidsAt (objs : Objects) (es : Entries) : Option Reference → List PdfObject → Prop
  | none, items => es.lookup "/Kids" = some (.array items)
  | some k, items => es.lookup "/Kids" = some (.indirect k) ∧ objs.get? k = some (.array items)

/-- The object at `r` is a `/Page` dictionary whose `/Parent` refers to `parent` (absent for
`none`). -/
def PageNode (objs : Objects) (parent : Option Reference) (r : Reference) : Prop :=
  ∃ es st, objs.get? r = some (.dictionary es st) ∧ objs.TypeIs (.dictionary es st) "/Page" ∧
    es.lookup "/Parent" = parent.map .indirect

/-- The object at `r` is a `/Pages` dictionary under `parent`, with `/Count` `n` and `/Kids`
listing `items` (held as `kr` says). -/
def PagesNode (objs : Objects) (parent : Option Reference) (r : Reference) (kr : Option Reference)
    (n : Nat) (items : List PdfObject) : Prop :=
  ∃ es st, objs.get? r = some (.dictionary es st) ∧ objs.TypeIs (.dictionary es st) "/Pages" ∧
    es.lookup "/Parent" = parent.map .indirect ∧
    objs.getItem (.dictionary es st) "/Count" = .ok (.number n) ∧ objs.KidsAt es kr items

end Objects

/-- The objects hold the page tree `t`, whose root's `/Parent` refers to `parent`. -/
inductive Realizes (objs : Objects) : Option Reference → PageTree → Prop where
  | page {parent : Option Reference} {r : Reference} :
      objs.PageNode parent r → Realizes objs parent (.page r)
  | pages {parent : Option Reference} {r : Reference} {kr : Option Reference}
      {kids : List PageTree} :
      objs.PagesNode parent r kr (PageTree.leavesList kids).length (PageTree.kidRefs kids) →
      (∀ c ∈ kids, Realizes objs (some r) c) → Realizes objs parent (.pages r kr kids)

/-- The writer's catalog has the `/Pages` entry `t.ref`, and `t` is a well-formed page tree
there: a `/Pages` root without `/Parent`, every node held as `Realizes` says, and no node
object listed twice. -/
structure WellFormed (w : BasePdfFileWriter) (t : PageTree) : Prop where
  catalog : ∃ es st, w.objects.get? w.root = some (.dictionary es st) ∧
    es.lookup "/Pages" = some (.indirect t.ref)
  root : ∃ kr kids, t = .pages t.ref kr kids
  realizes : Realizes w.objects none t
  nodup : t.nodes.Nodup

namespace Realizes

open PageTree

variable {objs : Objects}

theorem pages_iff {parent : Option Reference} {r : Reference} {kr : Option Reference}
    {kids : List PageTree} :
    Realizes objs parent (.pages r kr kids) ↔
      objs.PagesNode parent r kr (leavesList kids).length (kidRefs kids) ∧
        ∀ c ∈ kids, Realizes objs (some r) c :=
  ⟨fun h => by cases h with | pages hn hk => exact ⟨hn, hk⟩, fun h => .pages h.1 h.2⟩

theorem parent_entry {p : Option Reference} {t : PageTree} (h : Realizes objs p t) :
    ∃ es st, objs.get? t.ref = some (.dictionary es st) ∧ es.lookup "/Parent" = p.map .indirect := by
  cases h with
  | page hn => obtain ⟨es, st, hg, _, hp⟩ := hn; exact ⟨es, st, hg, hp⟩
  | pages hn _ => obtain ⟨es, st, hg, _, hp, _⟩ := hn; exact ⟨es, st, hg, hp⟩

theorem parent_unique {p₁ p₂ : Option Reference} {t₁ t₂ : PageTree} (h₁ : Realizes objs p₁ t₁)
    (h₂ : Realizes objs p₂ t₂) (href : t₁.ref = t₂.ref) : p₁ = p₂ := by
  obtain ⟨es₁, st₁, hg₁, hp₁⟩ := h₁.parent_entry
  obtain ⟨es₂, st₂, hg₂, hp₂⟩ := h₂.parent_entry
  rw [href, hg₂] at hg₁
  cases hg₁
  rw [hp₁] at hp₂
  cases p₁ <;> cases p₂ <;> simp_all

/-- Two realized `/Pages` nodes holding non-empty `/Kids` through the same reference are one
node: the first kid's `/Parent` names both. -/
theorem eq_of_kidsRef {p₁ p₂ : Option Reference} {r₁ r₂ k : Reference} {kids₁ kids₂ : List PageTree}
    (h₁ : Realizes objs p₁ (.pages r₁ (some k) kids₁)) (h₂ : Realizes objs p₂ (.pages r₂ (some k) kids₂))
    (hne : kids₁ ≠ []) : r₁ = r₂ := by
  obtain ⟨⟨es₁, st₁, -, -, -, -, -, hk₁⟩, hc₁⟩ := pages_iff.mp h₁
  obtain ⟨⟨es₂, st₂, -, -, -, -, -, hk₂⟩, hc₂⟩ := pages_iff.mp h₂
  rw [hk₁] at hk₂
  obtain ⟨c₁, cs₁, rfl⟩ := List.exists_cons_of_ne_nil hne
  obtain _ | ⟨c₂, cs₂⟩ := kids₂
  · simp [kidRefs] at hk₂
  · simp only [kidRefs, List.map_cons, Option.some.injEq, PdfObject.array.injEq,
      List.cons.injEq, PdfObject.indirect.injEq] at hk₂
    have := parent_unique (hc₁ c₁ (by simp)) (hc₂ c₂ (by simp)) hk₂.1
    simpa using this

theorem exists_of_mem_kidsKeys {p : Option Reference} {t : PageTree} (h : Realizes objs p t)
    {k : Reference} (hk : k ∈ t.kidsKeys) :
    ∃ q y ys, Realizes objs q (.pages y (some k) ys) ∧ y ∈ t.nodes := by
  induction h with
  | page _ => simp at hk
  | @pages parent r kr kids hn hkids ih =>
    simp only [kidsKeys_pages, List.mem_append, Option.mem_toList] at hk
    rcases hk with hk | hk
    · subst hk
      exact ⟨parent, r, kids, .pages hn hkids, by simp⟩
    · obtain ⟨c, hc, hkc⟩ : ∃ c ∈ kids, k ∈ c.kidsKeys := by
        clear ih hkids hn
        induction kids with
        | nil => simp at hk
        | cons c cs ihc =>
          simp only [kidsKeysList_cons, List.mem_append] at hk
          rcases hk with hk | hk
          · exact ⟨c, by simp, hk⟩
          · obtain ⟨c', hc', hk'⟩ := ihc hk
            exact ⟨c', by simp [hc'], hk'⟩
      obtain ⟨q, y, ys, hy, hmem⟩ := ih c hc hkc
      exact ⟨q, y, ys, hy, by simp [mem_nodesList hc y hmem]⟩

/-- The `/Kids` reference of a node with kids is no other node's: a realized tree not
containing the node does not use it. -/
theorem not_mem_kidsKeys {q p : Option Reference} {c k : Reference} {kids : List PageTree}
    {s : PageTree} (hc : Realizes objs q (.pages c (some k) kids)) (hne : kids ≠ [])
    (hs : Realizes objs p s) (hcs : c ∉ s.nodes) : k ∉ s.kidsKeys := by
  intro hk
  obtain ⟨q', y, ys, hy, hmem⟩ := hs.exists_of_mem_kidsKeys hk
  exact hcs (eq_of_kidsRef hc hy hne ▸ hmem)

end Realizes

/-! ### Frames of objects around a subtree -/

open PageTree in
/-- The parent of the hole of `ctx`, when the whole tree is under `parent`. -/
def holeParent (parent : Option Reference) : List Frame → Option Reference
  | [] => parent
  | f :: _ => some f.ref

open PageTree in
/-- The objects hold the frames `ctx` around a subtree whose root is `hole` with `n` leaves,
the outermost frame under `parent`. -/
def CtxRealizes (objs : Objects) (parent : Option Reference) :
    List Frame → Reference → Nat → Prop
  | [], _, _ => True
  | f :: fs, hole, n =>
    objs.PagesNode (holeParent parent fs) f.ref f.kidsRef
        ((leavesList f.left).length + n + (leavesList f.right).length)
        (kidRefs f.left ++ .indirect hole :: kidRefs f.right) ∧
      (∀ c ∈ f.left ++ f.right, Realizes objs (some f.ref) c) ∧
      CtxRealizes objs parent fs f.ref ((leavesList f.left).length + n + (leavesList f.right).length)

namespace Realizes

open PageTree

variable {objs : Objects}

theorem fill_iff {p : Option Reference} {f : Frame} {s : PageTree} :
    Realizes objs p (f.fill s) ↔
      objs.PagesNode p f.ref f.kidsRef
          ((leavesList f.left).length + (leaves s).length + (leavesList f.right).length)
          (kidRefs f.left ++ .indirect s.ref :: kidRefs f.right) ∧
        (∀ c ∈ f.left ++ f.right, Realizes objs (some f.ref) c) ∧ Realizes objs (some f.ref) s := by
  simp only [Frame.fill, pages_iff, leavesList_append, leavesList_cons, List.length_append,
    kidRefs, List.map_append, List.map_cons, List.mem_append, List.mem_cons]
  constructor
  · rintro ⟨hn, hk⟩
    exact ⟨by simpa [Nat.add_assoc] using hn, fun c hc => hk c (by tauto), hk s (by simp)⟩
  · rintro ⟨hn, hk, hs⟩
    refine ⟨by simpa [Nat.add_assoc] using hn, fun c hc => ?_⟩
    rcases hc with hc | rfl | hc
    · exact hk c (.inl hc)
    · exact hs
    · exact hk c (.inr hc)

theorem plug_iff {p : Option Reference} {ctx : List Frame} {s : PageTree} :
    Realizes objs p (plug ctx s) ↔
      CtxRealizes objs p ctx s.ref (leaves s).length ∧ Realizes objs (holeParent p ctx) s := by
  induction ctx generalizing s with
  | nil => simp [CtxRealizes, holeParent]
  | cons f fs ih =>
    have hlen : (leaves (f.fill s)).length =
        (leavesList f.left).length + (leaves s).length + (leavesList f.right).length := by
      simp [Frame.fill, Nat.add_assoc]
    simp only [plug_cons, ih, fill_iff, hlen, CtxRealizes, holeParent]
    simp only [Frame.fill, ref]
    tauto

end Realizes

/-! ### Changing objects outside a tree -/

/-- A name, a string or a number: what a node's `/Type` and `/Count` resolve to. -/
def PdfObject.isScalar : PdfObject → Bool
  | .name _ | .string _ | .number _ => true
  | _ => false

/-- Every name, string and number stored in `objs` is still stored in `objs'`. -/
def Objects.KeepsScalars (objs objs' : Objects) : Prop :=
  ∀ k v, objs.get? k = some v → v.isScalar → objs'.get? k = some v

namespace Objects

variable {objs objs' : Objects}

theorem getItem_of_keepsScalars (hk : objs.KeepsScalars objs') {o : PdfObject} {key : String}
    {v : PdfObject} (h : objs.getItem o key = .ok v) (hv : v.isScalar) :
    objs'.getItem o key = .ok v := by
  cases o with
  | dictionary es st =>
    simp only [getItem] at h ⊢
    split at h
    · rename_i raw _
      cases raw with
      | indirect r =>
        simp only [resolve, getObject_eq_ok] at h ⊢
        exact hk r v h hv
      | _ => exact h
    · cases h
  | _ => simp [getItem] at h

theorem TypeIs.of_keepsScalars (hk : objs.KeepsScalars objs') {o : PdfObject} {s : String}
    (h : objs.TypeIs o s) : objs'.TypeIs o s := by
  obtain ⟨v, hv, hs⟩ := h
  refine ⟨v, getItem_of_keepsScalars hk hv ?_, hs⟩
  cases v <;> simp_all [PdfObject.strValue?, PdfObject.isScalar]

theorem KidsAt.of_agree {es : Entries} {kr : Option Reference} {items : List PdfObject}
    (h : objs.KidsAt es kr items) (hkr : ∀ k ∈ kr, objs'.get? k = objs.get? k) :
    objs'.KidsAt es kr items := by
  cases kr with
  | none => exact h
  | some k => exact ⟨h.1, (hkr k rfl).trans h.2⟩

theorem PageNode.of_agree (hk : objs.KeepsScalars objs') {p : Option Reference} {r : Reference}
    (h : objs.PageNode p r) (hr : objs'.get? r = objs.get? r) : objs'.PageNode p r := by
  obtain ⟨es, st, hg, ht, hp⟩ := h
  exact ⟨es, st, hr.trans hg, ht.of_keepsScalars hk, hp⟩

theorem PagesNode.of_agree (hk : objs.KeepsScalars objs') {p : Option Reference} {r : Reference}
    {kr : Option Reference} {n : Nat} {items : List PdfObject} (h : objs.PagesNode p r kr n items)
    (hr : objs'.get? r = objs.get? r) (hkr : ∀ k ∈ kr, objs'.get? k = objs.get? k) :
    objs'.PagesNode p r kr n items := by
  obtain ⟨es, st, hg, ht, hp, hc, hkids⟩ := h
  exact ⟨es, st, hr.trans hg, ht.of_keepsScalars hk, hp,
    getItem_of_keepsScalars hk hc rfl, hkids.of_agree hkr⟩

end Objects

/-- Objects that agree on a tree's nodes and `/Kids` arrays and keep every scalar hold the same
tree. -/
theorem Realizes.frame {objs objs' : Objects} {p : Option Reference} {t : PageTree}
    (h : Realizes objs p t) (hk : objs.KeepsScalars objs')
    (hnodes : ∀ r ∈ t.nodes, objs'.get? r = objs.get? r)
    (hkids : ∀ k ∈ t.kidsKeys, objs'.get? k = objs.get? k) : Realizes objs' p t := by
  induction h with
  | page hn => exact .page (hn.of_agree hk (hnodes _ (by simp)))
  | @pages parent r kr kids hn _ ih =>
    refine .pages (hn.of_agree hk (hnodes r (by simp)) fun k hkr => hkids k (by simp [hkr]))
      fun c hc => ih c hc (fun r' hr' => hnodes r' ?_) (fun k hk' => hkids k ?_)
    · simp [PageTree.mem_nodesList hc r' hr']
    · simp [PageTree.mem_kidsKeysList hc k hk']

end PyHanko
