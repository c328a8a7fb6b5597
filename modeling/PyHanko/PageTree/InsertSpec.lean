import PyHanko.PageTree.InsertEffect

/-!
# `insert_page` keeps the page tree well formed

On a well-formed tree, a `/Page` dictionary without `/Parent` and `after` in
`{None, -1, 0, …, n-1}`, `insert_page` returns a fresh reference to the page, and the objects
hold the tree with the page inserted after the first `after + 1` leaves, `/Count` raised by
one exactly along the path to the page's node, and the page's `/Parent` set to that node. On
any other input it raises before its first mutation, leaving the writer as it was.

The proof goes through the zipper of `Tree`: after the call the objects hold the frames around
the receiving node with counts raised (`ctxRealizes_raised`), the receiving node with the new
kid, and everything else as before (`InsertEffect.realizes`). What keeps the parts apart is that
the tree lists no node twice (`nodup_layout`) and that a `/Kids` array is held by one node only
(`kidsRef_not_mem_ctxKidsKeys`).
-/

namespace PyHanko

set_option autoImplicit false

open PageTree

/-! ### Facts a realized tree gives -/

namespace Realizes

variable {objs : Objects}

theorem get_node {p : Option Reference} {t : PageTree} (h : Realizes objs p t) :
    ∀ r ∈ t.nodes, ∃ es st, objs.get? r = some (.dictionary es st) := by
  induction h with
  | page hn =>
    intro r hr
    simp only [nodes_page, List.mem_singleton] at hr
    subst hr
    obtain ⟨es, st, hg, -⟩ := hn
    exact ⟨es, st, hg⟩
  | pages hn _ ih =>
    intro r hr
    rcases List.mem_cons.mp (by simpa using hr) with rfl | hr
    · obtain ⟨es, st, hg, -⟩ := hn
      exact ⟨es, st, hg⟩
    · obtain ⟨c, hc, hrc⟩ := mem_nodesList_iff.mp hr
      exact ih c hc r hrc

theorem get_kidsKey {p : Option Reference} {t : PageTree} (h : Realizes objs p t) :
    ∀ k ∈ t.kidsKeys, ∃ items, objs.get? k = some (.array items) := by
  induction h with
  | page _ => simp
  | @pages parent r kr kids hn _ ih =>
    intro k hk
    simp only [kidsKeys_pages, List.mem_append, Option.mem_toList] at hk
    rcases hk with rfl | hk
    · obtain ⟨-, -, -, -, -, -, -, hka⟩ := hn
      exact ⟨_, hka⟩
    · obtain ⟨c, hc, hkc⟩ := mem_kidsKeysList_iff.mp hk
      exact ih c hc k hkc

end Realizes

/-! ### Where a position's nodes are -/

/-- The nodes of the frames' other kids. -/
def ctxSiblingNodes : List Frame → List Reference
  | [] => []
  | f :: fs => nodesList f.left ++ nodesList f.right ++ ctxSiblingNodes fs

theorem mem_ctxSiblingNodes {ctx : List Frame} {f : Frame} (hf : f ∈ ctx) {s : PageTree}
    (hs : s ∈ f.left ++ f.right) {y : Reference} (hy : y ∈ s.nodes) : y ∈ ctxSiblingNodes ctx := by
  induction ctx with
  | nil => cases hf
  | cons g gs ih =>
    simp only [ctxSiblingNodes, List.mem_append]
    rcases List.mem_cons.mp hf with rfl | hf
    · rcases List.mem_append.mp hs with hs | hs
      · exact .inl (.inl (mem_nodesList hs y hy))
      · exact .inl (.inr (mem_nodesList hs y hy))
    · exact .inr (ih hf)

theorem mem_ctxKidsKeys_of_kidsRef {ctx : List Frame} {f : Frame} (hf : f ∈ ctx) {k : Reference}
    (hk : k ∈ f.kidsRef) : k ∈ ctxKidsKeys ctx := by
  induction ctx with
  | nil => cases hf
  | cons g gs ih =>
    simp only [ctxKidsKeys, List.mem_append, Option.mem_toList]
    rcases List.mem_cons.mp hf with rfl | hf
    · exact .inl (.inl (.inl hk))
    · exact .inr (ih hf)

theorem mem_ctxKidsKeys_of_sibling {ctx : List Frame} {f : Frame} (hf : f ∈ ctx) {s : PageTree}
    (hs : s ∈ f.left ++ f.right) {k : Reference} (hk : k ∈ s.kidsKeys) : k ∈ ctxKidsKeys ctx := by
  induction ctx with
  | nil => cases hf
  | cons g gs ih =>
    simp only [ctxKidsKeys, List.mem_append]
    rcases List.mem_cons.mp hf with rfl | hf
    · rcases List.mem_append.mp hs with hs | hs
      · exact .inl (.inl (.inr (mem_kidsKeysList hs k hk)))
      · exact .inl (.inr (mem_kidsKeysList hs k hk))
    · exact .inr (ih hf)

theorem ctxPre_append_ctxPost_perm (ctx : List Frame) :
    (ctxPre ctx ++ ctxPost ctx).Perm (ctx.map Frame.ref ++ ctxSiblingNodes ctx) := by
  induction ctx with
  | nil => simp [ctxPre, ctxPost, ctxSiblingNodes]
  | cons f fs ih =>
    refine List.perm_iff_count.mpr fun a => ?_
    have := List.perm_iff_count.mp ih a
    simp only [ctxPre, ctxPost, ctxSiblingNodes, List.map_cons, List.count_append,
      List.count_cons] at this ⊢
    omega

/-- In a tree listing no node twice, the chain from a position's node `c` up to the root, the
nodes below `c` and the frames' other nodes are all distinct. -/
theorem nodup_layout {ctx : List Frame} {c : Reference} {kr : Option Reference}
    {kids : List PageTree} (h : (nodes (plug ctx (.pages c kr kids))).Nodup) :
    ((c :: ctx.map Frame.ref) ++ nodesList kids ++ ctxSiblingNodes ctx).Nodup := by
  rw [nodes_plug, nodes_pages] at h
  refine (List.Perm.nodup_iff (List.perm_iff_count.mpr fun a => ?_)).mp h
  have := List.perm_iff_count.mp (ctxPre_append_ctxPost_perm ctx) a
  simp only [List.count_append, List.count_cons] at this ⊢
  omega

section Layout

variable {ctx : List Frame} {c : Reference} {kr : Option Reference} {kids : List PageTree}
  (h : (nodes (plug ctx (.pages c kr kids))).Nodup)
include h

theorem chain_nodup : (c :: ctx.map Frame.ref).Nodup :=
  (List.nodup_append.mp (List.nodup_append.mp (nodup_layout h)).1).1

theorem not_mem_chain_of_kids {y : Reference} (hy : y ∈ nodesList kids) :
    y ∉ c :: ctx.map Frame.ref :=
  fun hc => List.disjoint_of_nodup_append (List.nodup_append.mp (nodup_layout h)).1 hc hy

theorem not_mem_chain_of_sibling {y : Reference} (hy : y ∈ ctxSiblingNodes ctx) :
    y ∉ c :: ctx.map Frame.ref :=
  fun hc => List.disjoint_of_nodup_append (nodup_layout h) (List.mem_append_left _ hc) hy

end Layout

/-- The `/Kids` reference of a `/Pages` node with kids is used by no frame around it: an array
held by two nodes would make the first kid's `/Parent` name both. -/
theorem kidsRef_not_mem_ctxKidsKeys {objs : Objects} {q : Option Reference} {c K : Reference}
    {kids : List PageTree} (hc : Realizes objs q (.pages c (some K) kids)) (hne : kids ≠ []) :
    ∀ {ctx : List Frame} {s : PageTree} {p : Option Reference}, Realizes objs p (plug ctx s) →
      c ∉ ctx.map Frame.ref → c ∉ ctxSiblingNodes ctx → K ∉ ctxKidsKeys ctx
  | [], _, _, _, _, _ => by simp [ctxKidsKeys]
  | f :: fs, s, p, h, hr, hs => by
    have hfs := kidsRef_not_mem_ctxKidsKeys hc hne (show Realizes objs p (plug fs (f.fill s)) from h)
      (fun h' => hr (List.mem_cons_of_mem _ h'))
      (fun h' => hs (by simp only [ctxSiblingNodes, List.mem_append]; exact .inr h'))
    obtain ⟨-, hfill⟩ := Realizes.plug_iff.mp (show Realizes objs p (plug fs (f.fill s)) from h)
    obtain ⟨-, hsib, -⟩ := Realizes.fill_iff.mp hfill
    have hside : ∀ s' ∈ f.left ++ f.right, K ∉ s'.kidsKeys := fun s' hs' =>
      hc.not_mem_kidsKeys hne (hsib s' hs') fun hcs =>
        hs (mem_ctxSiblingNodes (List.mem_cons_self _ _) hs' hcs)
    simp only [ctxKidsKeys, List.mem_append, Option.mem_toList, not_or]
    refine ⟨⟨⟨fun hK => ?_, fun hk => ?_⟩, fun hk => ?_⟩, hfs⟩
    · -- `K` is the frame's own `/Kids` reference: the frame is the node `c`
      have hfill' : Realizes objs (holeParent p fs) (.pages f.ref (some K) (f.left ++ s :: f.right)) := by
        rw [← hK]; exact hfill
      exact hr (by simp [Realizes.eq_of_kidsRef hc hfill' hne])
    · obtain ⟨s', hs', hk'⟩ := mem_kidsKeysList_iff.mp hk
      exact hside s' (List.mem_append_left _ hs') hk'
    · obtain ⟨s', hs', hk'⟩ := mem_kidsKeysList_iff.mp hk
      exact hside s' (List.mem_append_right _ hs') hk'

/-! ### The tree after the insertion -/

theorem ctxRealizes_raised {objs O : Objects} (hk : objs.KeepsScalars O) {p : Option Reference} :
    ∀ {ctx : List Frame} {hole : Reference} {n : Nat}, CtxRealizes objs p ctx hole n →
      (∀ f ∈ ctx, O.get? f.ref = objs.countRaised f.ref) →
      (∀ f ∈ ctx, ∀ es items, objs.KidsAt es f.kidsRef items → O.KidsAt es f.kidsRef items) →
      (∀ f ∈ ctx, ∀ s ∈ f.left ++ f.right, Realizes objs (some f.ref) s →
        Realizes O (some f.ref) s) →
      CtxRealizes O p ctx hole (n + 1)
  | [], _, _, _, _, _, _ => trivial
  | f :: fs, _, n, ⟨hf, hsib, hfs⟩, hup, hkids, hsibs => by
    have e : (leavesList f.left).length + (n + 1) + (leavesList f.right).length =
        (leavesList f.left).length + n + (leavesList f.right).length + 1 := by omega
    refine ⟨?_, fun s hs => hsibs f (List.mem_cons_self _ _) s hs (hsib s hs), ?_⟩
    · rw [e]
      exact hf.raised hk (hup f (List.mem_cons_self _ _)) (hkids f (List.mem_cons_self _ _) · _)
    · rw [e]
      exact ctxRealizes_raised hk hfs (fun g hg => hup g (List.mem_cons_of_mem _ hg))
        (fun g hg => hkids g (List.mem_cons_of_mem _ hg))
        (fun g hg => hsibs g (List.mem_cons_of_mem _ hg))

namespace InsertEffect

variable {objs O : Objects} {c : Reference} {up : List Reference} {kr : Option Reference}
  {i : Nat} {N : Reference} {page : PdfObject}

theorem realizes (he : InsertEffect objs O c up kr i N page) {p : Option Reference}
    {s : PageTree} (hs : Realizes objs p s) (hn : ∀ y ∈ s.nodes, y ∉ c :: up)
    (hk : ∀ k ∈ s.kidsKeys, k ∉ kr) : Realizes O p s :=
  hs.frame he.keeps
    (fun y hy => by
      obtain ⟨es, st, hg⟩ := hs.get_node y hy
      exact he.dicts y es st hg (hn y hy))
    (fun k hk' => by
      obtain ⟨items, hg⟩ := hs.get_kidsKey k hk'
      exact he.arrays k items hg (hk k hk'))

theorem kidsAt (he : InsertEffect objs O c up kr i N page) {es : Entries}
    {kr' : Option Reference} {items : List PdfObject} (h : objs.KidsAt es kr' items)
    (hkr : ∀ k ∈ kr', k ∉ kr) : O.KidsAt es kr' items := by
  cases kr' with
  | none => exact h
  | some k => exact ⟨h.1, (he.arrays k items h.2 (hkr k rfl)).trans h.2⟩

theorem countAt (he : InsertEffect objs O c up kr i N page) {x : Reference} {es : Entries}
    {st : Option (List UInt8)} (hx : objs.get? x = some (.dictionary es st)) (hxc : x ≠ c)
    {n : Int} (hn : objs.countAt (Loc.top x) = .ok n) :
    O.countAt (Loc.top x) = .ok (if x ∈ up then n + 1 else n) := by
  split
  · exact Objects.countAt_of_raised hx hn (he.up x ‹_›)
  · exact Objects.countAt_of_agree he.keeps
      (he.dicts x es st hx (by simp only [List.mem_cons, not_or]; exact ⟨hxc, ‹_›⟩)) hn

end InsertEffect

theorem leavesList_inserted (kids : List PageTree) (i : Nat) (N : Reference) :
    (leavesList (kids.take i ++ .page N :: kids.drop i)).length = (leavesList kids).length + 1 := by
  conv_rhs => rw [← List.take_append_drop i kids]
  simp only [leavesList_append, leavesList_cons, leaves_page, List.length_append,
    List.length_cons, List.length_singleton, List.length_nil]
  omega

theorem kidRefs_inserted (kids : List PageTree) (i : Nat) (N : Reference) :
    kidRefs (kids.take i ++ .page N :: kids.drop i) =
      (kidRefs kids).take i ++ .indirect N :: (kidRefs kids).drop i := by
  simp [kidRefs, List.map_take, List.map_drop, PageTree.ref]

/-- Objects with the effect of inserting `N` at place `i` under the node `c` of a position in a
realized tree without repeated nodes hold the tree with the new leaf there. -/
theorem realizes_inserted {objs O : Objects} {ctx : List Frame} {c : Reference}
    {kr : Option Reference} {kids : List PageTree} {i : Nat} {N : Reference} {es : Entries}
    {st : Option (List UInt8)} (h : Realizes objs none (plug ctx (.pages c kr kids)))
    (hnd : (nodes (plug ctx (.pages c kr kids))).Nodup) (hempty : kids = [] → ctx = [])
    (htype : objs.TypeIs (.dictionary es st) "/Page")
    (he : InsertEffect objs O c (ctx.map Frame.ref) kr i N (.dictionary es st)) :
    Realizes O none (plug ctx (.pages c kr (kids.take i ++ .page N :: kids.drop i))) := by
  obtain ⟨hctx, hfocus⟩ := Realizes.plug_iff.mp h
  obtain ⟨hpn, hkids⟩ := Realizes.pages_iff.mp hfocus
  have hcsib : c ∉ ctxSiblingNodes ctx := fun hc =>
    not_mem_chain_of_sibling hnd hc (List.mem_cons_self _ _)
  -- `c`'s `/Kids` reference, if any, is used nowhere else in the tree
  have hK : ∀ K ∈ kr, K ∉ ctxKidsKeys ctx ∧ ∀ s ∈ kids, K ∉ s.kidsKeys := by
    intro K hK
    obtain rfl : kr = some K := hK
    by_cases hne : kids = []
    · simp [hempty hne, ctxKidsKeys, hne]
    · exact ⟨kidsRef_not_mem_ctxKidsKeys hfocus hne h (List.nodup_cons.mp (chain_nodup hnd)).1 hcsib,
        fun s hs => hfocus.not_mem_kidsKeys hne (hkids s hs) fun hc =>
          not_mem_chain_of_kids hnd (mem_nodesList hs c hc) (List.mem_cons_self _ _)⟩
  have hkept : ∀ s ∈ kids, Realizes O (some c) s := fun s hs =>
    he.realizes (hkids s hs) (fun y hy => not_mem_chain_of_kids hnd (mem_nodesList hs y hy))
      (fun k hk hkr => (hK k hkr).2 s hs hk)
  refine Realizes.plug_iff.mpr ⟨?_, Realizes.pages_iff.mpr ⟨?_, fun s hs => ?_⟩⟩
  · -- the frames, each `/Count` one higher
    rw [leaves_pages, leavesList_inserted]
    exact ctxRealizes_raised he.keeps hctx (fun f hf => he.up f.ref (List.mem_map_of_mem _ hf))
      (fun f hf _ _ hk => he.kidsAt hk fun k hkf hkr =>
        (hK k hkr).1 (mem_ctxKidsKeys_of_kidsRef hf hkf))
      (fun f hf s hs hs' => he.realizes hs'
        (fun y hy => not_mem_chain_of_sibling hnd (mem_ctxSiblingNodes hf hs hy))
        (fun k hk hkr => (hK k hkr).1 (mem_ctxKidsKeys_of_sibling hf hs hk)))
  · -- the receiving node, with the new kid
    rw [leavesList_inserted, kidRefs_inserted]
    exact he.focus _ _ _ hpn
  · -- its kids: the old ones as before, and the page under `c`
    simp only [List.mem_append, List.mem_cons] at hs
    rcases hs with hs | rfl | hs
    · exact hkept s (List.mem_of_mem_take hs)
    · exact .page ⟨_, st, he.page, (htype.of_keepsScalars he.keeps).of_lookup
        (lookup_setEntry_of_ne _ _ (by decide)), lookup_setEntry_self _ _ _⟩
    · exact hkept s (List.mem_of_mem_drop hs)

theorem ref_plug_congr (ctx : List Frame) {s s' : PageTree} (h : s.ref = s'.ref) :
    (plug ctx s).ref = (plug ctx s').ref := by
  induction ctx generalizing s s' with
  | nil => exact h
  | cons f fs ih => exact ih rfl

theorem plug_pages_eq (ctx : List Frame) (c : Reference) (kr : Option Reference)
    (kids : List PageTree) :
    ∃ kr' kids', plug ctx (.pages c kr kids) = .pages (plug ctx (.pages c kr kids)).ref kr' kids' := by
  induction ctx generalizing c kr kids with
  | nil => exact ⟨kr, kids, rfl⟩
  | cons f fs ih => exact ih f.ref f.kidsRef _

theorem nodes_inserted_perm (ctx : List Frame) (c : Reference) (kr : Option Reference)
    (kids : List PageTree) (i : Nat) (N : Reference) :
    (nodes (plug ctx (.pages c kr (kids.take i ++ .page N :: kids.drop i)))).Perm
      (N :: nodes (plug ctx (.pages c kr kids))) := by
  refine List.perm_iff_count.mpr fun a => ?_
  conv_rhs => rw [← List.take_append_drop i kids]
  simp only [nodes_plug, nodes_pages, nodesList_append, nodesList_cons, nodes_page,
    List.count_append, List.count_cons, List.count_singleton, List.count_nil]
  omega

theorem leaves_inserted {ctx : List Frame} {c : Reference} {kr : Option Reference}
    {kids : List PageTree} {i : Nat} {N : Reference} :
    leaves (plug ctx (.pages c kr (kids.take i ++ .page N :: kids.drop i))) =
      (leaves (plug ctx (.pages c kr kids))).take ((ctxLeft ctx).length + (leavesList (kids.take i)).length) ++
        N :: (leaves (plug ctx (.pages c kr kids))).drop
          ((ctxLeft ctx).length + (leavesList (kids.take i)).length) := by
  have hk : leavesList kids = leavesList (kids.take i) ++ leavesList (kids.drop i) := by
    rw [← leavesList_append, List.take_append_drop]
  have e : leaves (plug ctx (.pages c kr kids)) =
      (ctxLeft ctx ++ leavesList (kids.take i)) ++ (leavesList (kids.drop i) ++ ctxRight ctx) := by
    rw [leaves_plug, leaves_pages, hk]; simp only [List.append_assoc]
  rw [e, ← List.length_append, List.take_left, List.drop_left, leaves_plug]
  simp [List.append_assoc]

/-! ### `insert_page` -/

/-- `insert_page` on a well-formed tree, with a page that passes the checks and `after` in
range: the position the plan names, the effect on the objects, and the writer afterwards. -/
theorem insertPage_run {start : Nat} {w : BasePdfFileWriter} {t : PageTree} (hw : WellFormed w t)
    (halloc : AllocInv start w) {fuel : Nat} (hfuel : t.depth ≤ fuel) {es : Entries}
    {st : Option (List UInt8)} (htype : w.objects.TypeIs (.dictionary es st) "/Page")
    (hparent : es.lookup "/Parent" = none) {after : Option Int}
    (hafter : ∀ a, after = some a → -1 ≤ a ∧ a < (leaves t).length) :
    ∃ ctx c kr kids i O,
      InsertsAt t (after.getD ((leaves t).length - 1) + 1).toNat ctx c kr kids i ∧
      InsertEffect w.objects O c (ctx.map Frame.ref) kr i ⟨0, w.lastobjId + 1⟩
        (.dictionary es st) ∧
      w.insertPage fuel (.dictionary es st) after = (.ok ⟨0, w.lastobjId + 1⟩,
        { w with
          objects := O
          lastobjId := w.lastobjId + 1
          updated := w.updated ++ .indirect c :: kr.toList.map .indirect }) := by
  have harange : -1 ≤ after.getD ((leaves t).length - 1) ∧
      after.getD ((leaves t).length - 1) < (leaves t).length := by
    cases after with
    | some a => exact hafter a rfl
    | none => simp only [Option.getD_none]; omega
  obtain ⟨ctx, c, kr, kids, i, hpos, hplan⟩ := (locatePlan_spec hw hfuel _).1 harange
  have ht := hpos.1
  have hreal := hw.realizes
  rw [ht] at hreal
  obtain ⟨hctx, hfocus⟩ := Realizes.plug_iff.mp hreal
  have hpn := (Realizes.pages_iff.mp hfocus).1
  have hnd : (nodes (plug ctx (.pages c kr kids))).Nodup := ht ▸ hw.nodup
  -- the `/Count` loop runs up the chain and stops at the root
  have hchain := parentChain_of_ctx ctx hpn hctx
  have hlen : (ctx.map Frame.ref).length + 1 ≤ fuel := by
    have := depth_plug_ge ctx (.pages c kr kids)
    rw [← ht, depth_pages] at this
    simp only [List.length_map]; omega
  obtain ⟨objs₁, hrun, hkeys, hk₁, hg₁⟩ :=
    increaseCounts_chain _ _ _ hchain (chain_nodup hnd) fuel hlen
  have he := insertEffect hpn (fun x hx => hchain.get x (List.mem_cons_of_mem _ hx))
    (List.nodup_cons.mp (chain_nodup hnd)).1 hk₁ hg₁ halloc.next_fresh (.dictionary es st) i
  obtain ⟨es₀, st₀, hg₀, -, -, hc₀, hk₀⟩ := hpn
  -- where `/Kids` lives still holds the kids when the page is inserted
  have hloc : objs₁.objectAt (kidsLocOf c kr) = some (.array (kidRefs kids)) := by
    cases kr with
    | none =>
      rw [kidsLocOf_none, Objects.objectAt, hg₁, if_pos (List.mem_cons_self _ _),
        Objects.countRaised_of_get hg₀ ((Objects.countAt_top hg₀ _).mpr hc₀)]
      simp [PdfObject.descend, lookup_setEntry_of_ne _ _ (show "/Kids" ≠ "/Count" by decide),
        show es₀.lookup "/Kids" = some (.array (kidRefs kids)) from hk₀]
    | some K =>
      have hKc : K ∉ c :: ctx.map Frame.ref := fun hK => by
        obtain ⟨_, _, hK'⟩ := hchain.get K hK
        rw [hk₀.2] at hK'; cases hK'
      rw [kidsLocOf_some, Objects.objectAt, hg₁, if_neg hKc, hk₀.2]; rfl
  have hKc : ∀ K ∈ kr, K ≠ c := by
    rintro K rfl rfl
    rw [hk₀.2] at hg₀; cases hg₀
  refine ⟨ctx, c, kr, kids, i, _, hpos, he, ?_⟩
  simp only [BasePdfFileWriter.insertPage, insertPlan_good_page hw htype hparent, hplan, hrun]
  exact BasePdfFileWriter.insertNewPage_ok { w with objects := objs₁ } _ i
    (by rw [hkeys]; exact halloc.next_fresh) hloc hKc

/-- On a well-formed tree, for a `/Page` dictionary without `/Parent` and `after` in
`{None, -1, 0, …, n-1}`, `insert_page` stores the page under a fresh reference `r` and returns
it; the tree afterwards is well formed, has the nodes of the old one and `r`, and has the
leaves of the old one with `r` after the first `after + 1` (`after` defaulting to `n - 1`); `r`
sits below the node `c` ending the path `path` from the root; `/Count` is one higher on that
path and the same on every other node; and the page's `/Parent` is `c`. -/
theorem insertPage_inserts_leaf {start : Nat} {w : BasePdfFileWriter} {t : PageTree}
    (hw : WellFormed w t) (halloc : AllocInv start w) {fuel : Nat} (hfuel : t.depth ≤ fuel)
    {es : Entries} {st : Option (List UInt8)} (htype : w.objects.TypeIs (.dictionary es st) "/Page")
    (hparent : es.lookup "/Parent" = none) {after : Option Int}
    (hafter : ∀ a, after = some a → -1 ≤ a ∧ a < (leaves t).length) :
    (⟨0, w.lastobjId + 1⟩ : Reference) ∉ w.objects.keys ∧
    ∃ w' t' path c k,
      w.insertPage fuel (.dictionary es st) after = (.ok ⟨0, w.lastobjId + 1⟩, w') ∧
      WellFormed w' t' ∧ t'.nodes.Perm (⟨0, w.lastobjId + 1⟩ :: t.nodes) ∧
      leaves t' = (leaves t).take (after.getD ((leaves t).length - 1) + 1).toNat ++
        ⟨0, w.lastobjId + 1⟩ :: (leaves t).drop (after.getD ((leaves t).length - 1) + 1).toNat ∧
      t'.PathTo path c k ⟨0, w.lastobjId + 1⟩ ∧
      (∀ x ∈ t.nodes, ∀ n, w.objects.countAt (Loc.top x) = .ok n →
        w'.objects.countAt (Loc.top x) = .ok (if x ∈ path then n + 1 else n)) ∧
      w'.objects.get? ⟨0, w.lastobjId + 1⟩ =
        some (.dictionary (setEntry es "/Parent" (.indirect c)) st) := by
  obtain ⟨ctx, c, kr, kids, i, O, ⟨ht, hi, hbefore, hempty⟩, he, hrun⟩ :=
    insertPage_run hw halloc hfuel htype hparent hafter
  have hreal := hw.realizes
  have hnd := hw.nodup
  rw [ht] at hreal hnd
  have hfresh : (⟨0, w.lastobjId + 1⟩ : Reference) ∉ t.nodes := fun hN => by
    obtain ⟨_, _, hg⟩ := hw.realizes.get_node _ hN
    exact halloc.next_fresh (PyDict.mem_keys_of_get? hg)
  have hperm := nodes_inserted_perm ctx c kr kids i ⟨0, w.lastobjId + 1⟩
  rw [← ht] at hperm
  refine ⟨halloc.next_fresh, _, _, ctxPath ctx c, c, i, hrun, ⟨?_, ?_, realizes_inserted hreal hnd
    hempty htype he, hperm.nodup_iff.mpr (List.nodup_cons.mpr ⟨hfresh, hw.nodup⟩)⟩, hperm, ?_,
    ⟨ctx, kr, _, rfl, ?_, rfl⟩, fun x hx n hn => ?_, he.page⟩
  · -- the catalog still names the root, which keeps its reference
    obtain ⟨ces, cst, hcat, hpages⟩ := hw.catalog
    obtain ⟨ces', hO, hces'⟩ := he.entries _ _ _ hcat
    refine ⟨ces', cst, hO, (hces' _ (by decide) (by decide)).trans ?_⟩
    rw [hpages, ht]
    exact congrArg (fun r => some (PdfObject.indirect r)) (ref_plug_congr ctx rfl)
  · exact plug_pages_eq ctx c kr _
  · rw [leaves_inserted, hbefore, ← ht]
  · rw [List.getElem?_append_right (by simp)]
    simp [Nat.min_eq_left hi]
  · -- `/Count`: one higher on the path, the same elsewhere
    have hmem : x ∈ ctxPath ctx c ↔ x = c ∨ x ∈ ctx.map Frame.ref := by
      simp [ctxPath, or_comm]
    obtain ⟨esx, stx, hgx⟩ := hw.realizes.get_node x hx
    by_cases hxc : x = c
    · subst hxc
      have hpn := (Realizes.pages_iff.mp (Realizes.plug_iff.mp hreal).2).1
      rw [hpn.countAt] at hn
      cases hn
      rw [if_pos (hmem.mpr (.inl rfl)), (he.focus _ _ _ hpn).countAt]
      simp
    · rw [he.countAt hgx hxc hn]
      simp only [hmem, hxc, false_or]

theorem allocInv_onePage : AllocInv 0 onePageWriter := ⟨Nat.zero_le _, by decide⟩

theorem insertPage_inserts_leaf_onePage :
    WellFormed onePageWriter onePageTree ∧ AllocInv 0 onePageWriter ∧ onePageTree.depth ≤ 1 ∧
    onePageWriter.objects.TypeIs (.dictionary [("/Type", .name "/Page")] none) "/Page" ∧
    [("/Type", PdfObject.name "/Page")].lookup "/Parent" = none ∧
    (∀ a, some (0 : Int) = some a → -1 ≤ a ∧ a < (leaves onePageTree).length) ∧
    ((⟨0, onePageWriter.lastobjId + 1⟩ : Reference) ∉ onePageWriter.objects.keys ∧
    ∃ w' t' path c k,
      onePageWriter.insertPage 1 (.dictionary [("/Type", .name "/Page")] none) (some 0) =
        (.ok ⟨0, onePageWriter.lastobjId + 1⟩, w') ∧
      WellFormed w' t' ∧ t'.nodes.Perm (⟨0, onePageWriter.lastobjId + 1⟩ :: onePageTree.nodes) ∧
      leaves t' = (leaves onePageTree).take
          ((some (0 : Int)).getD ((leaves onePageTree).length - 1) + 1).toNat ++
        ⟨0, onePageWriter.lastobjId + 1⟩ :: (leaves onePageTree).drop
          ((some (0 : Int)).getD ((leaves onePageTree).length - 1) + 1).toNat ∧
      t'.PathTo path c k ⟨0, onePageWriter.lastobjId + 1⟩ ∧
      (∀ x ∈ onePageTree.nodes, ∀ n, onePageWriter.objects.countAt (Loc.top x) = .ok n →
        w'.objects.countAt (Loc.top x) = .ok (if x ∈ path then n + 1 else n)) ∧
      w'.objects.get? ⟨0, onePageWriter.lastobjId + 1⟩ =
        some (.dictionary (setEntry [("/Type", .name "/Page")] "/Parent" (.indirect c)) none)) :=
  have htype : onePageWriter.objects.TypeIs (.dictionary [("/Type", .name "/Page")] none) "/Page" :=
    ⟨.name "/Page", rfl, rfl⟩
  ⟨wellFormed_onePage, allocInv_onePage, by decide, htype, rfl, fun a h => by cases h; decide,
    insertPage_inserts_leaf wellFormed_onePage allocInv_onePage (by decide) htype rfl
      fun a h => by cases h; decide⟩

/-- On a well-formed tree, `insert_page(p, after)` raises exactly when `p` is not a `/Page`, has
a `/Parent`, or `after` is given outside `-1 … n-1`; when it raises, the writer is as it was:
every check comes before the first mutation. -/
theorem insertPage_raises_iff {start : Nat} {w : BasePdfFileWriter} {t : PageTree}
    (hw : WellFormed w t) (halloc : AllocInv start w) {fuel : Nat} (hfuel : t.depth ≤ fuel)
    (es : Entries) (st : Option (List UInt8)) (after : Option Int) :
    ((¬ w.objects.TypeIs (.dictionary es st) "/Page" ∨ (es.lookup "/Parent").isSome ∨
        ∃ a, after = some a ∧ ¬ (-1 ≤ a ∧ a < (leaves t).length)) →
      ∃ e, w.insertPage fuel (.dictionary es st) after = (.error e, w)) ∧
    (¬ (¬ w.objects.TypeIs (.dictionary es st) "/Page" ∨ (es.lookup "/Parent").isSome ∨
        ∃ a, after = some a ∧ ¬ (-1 ≤ a ∧ a < (leaves t).length)) →
      ∃ r w', w.insertPage fuel (.dictionary es st) after = (.ok r, w')) := by
  have herr : ∀ e, w.insertPlan fuel (.dictionary es st) after = .error e →
      w.insertPage fuel (.dictionary es st) after = (.error e, w) := fun e h => by
    simp [BasePdfFileWriter.insertPage, h]
  refine ⟨fun hbad => ?_, fun hgood => ?_⟩
  · by_cases hpage : ¬ w.objects.TypeIs (.dictionary es st) "/Page" ∨ (es.lookup "/Parent").isSome
    · obtain ⟨e, he⟩ := insertPlan_bad_page hpage fuel after
      exact ⟨e, herr e he⟩
    · -- the page passes its checks, so `after` is out of range
      obtain ⟨htype, hparent⟩ := not_or.mp hpage
      obtain ⟨a, rfl, ha⟩ := (hbad.resolve_left htype).resolve_left hparent
      obtain ⟨e, he⟩ := (locatePlan_spec hw hfuel a).2 ha
      refine ⟨e, herr e ?_⟩
      rw [insertPlan_good_page hw (not_not.mp htype) (Option.not_isSome_iff_eq_none.mp hparent)]
      exact he
  · obtain ⟨htype, hrest⟩ := not_or.mp hgood
    obtain ⟨hparent, hafter⟩ := not_or.mp hrest
    obtain ⟨_, _, _, _, _, _, _, _, hrun⟩ := insertPage_run hw halloc hfuel (not_not.mp htype)
      (Option.not_isSome_iff_eq_none.mp hparent) fun a ha => not_not.mp fun h => hafter ⟨a, ha, h⟩
    exact ⟨_, _, hrun⟩

theorem insertPage_raises_iff_onePage :
    WellFormed onePageWriter onePageTree ∧ AllocInv 0 onePageWriter ∧ onePageTree.depth ≤ 1 ∧
    ((¬ onePageWriter.objects.TypeIs (.dictionary [("/Type", .name "/Page")] none) "/Page" ∨
        ([("/Type", PdfObject.name "/Page")].lookup "/Parent").isSome ∨
        ∃ a, some (1 : Int) = some a ∧ ¬ (-1 ≤ a ∧ a < (leaves onePageTree).length)) →
      ∃ e, onePageWriter.insertPage 1 (.dictionary [("/Type", .name "/Page")] none) (some 1) =
        (.error e, onePageWriter)) ∧
    (¬ (¬ onePageWriter.objects.TypeIs (.dictionary [("/Type", .name "/Page")] none) "/Page" ∨
        ([("/Type", PdfObject.name "/Page")].lookup "/Parent").isSome ∨
        ∃ a, some (1 : Int) = some a ∧ ¬ (-1 ≤ a ∧ a < (leaves onePageTree).length)) →
      ∃ r w', onePageWriter.insertPage 1 (.dictionary [("/Type", .name "/Page")] none) (some 1) =
        (.ok r, w')) :=
  ⟨wellFormed_onePage, allocInv_onePage, by decide,
    insertPage_raises_iff wellFormed_onePage allocInv_onePage (by decide) _ _ _⟩

end PyHanko
