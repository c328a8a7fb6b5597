import PyHanko.PageTree.InsertPlan

/-!
# What `insert_page` does to the objects

Past its checks and the plan, `insert_page` raises `/Count` along the `/Parent` chain `c :: up`
of the receiving node `c`, stores the page under a fresh `N`, inserts `N` into the `/Kids` of
`c` and sets the page's `/Parent`. `InsertEffect` says what this leaves: every scalar kept,
every dictionary keeping its entries but `/Count` and `/Kids`, dictionaries off the chain and
arrays other than `c`'s `/Kids` untouched, `/Count` raised on the chain, the receiving node with
one more kid, and the page under `c`. `insertEffect` proves it of the model's objects, so the
proofs about the tree never unfold the mutations.
-/

namespace PyHanko

set_option autoImplicit false

theorem kidsLocOf_none (c : Reference) : kidsLocOf c none = ⟨c, ["/Kids"]⟩ := rfl

theorem kidsLocOf_some (c K : Reference) : kidsLocOf c (some K) = ⟨K, []⟩ := rfl

theorem modifyAt_single_entries (es : Entries) (st : Option (List UInt8)) (k : String)
    (f : PdfObject → PdfObject) : ∃ es', (PdfObject.dictionary es st).modifyAt [k] f =
      .dictionary es' st ∧ ∀ k', k' ≠ k → es'.lookup k' = es.lookup k' := by
  simp only [PdfObject.modifyAt]
  split
  · exact ⟨_, rfl, fun k' hk => lookup_setEntry_of_ne _ _ hk⟩
  · exact ⟨es, rfl, fun _ _ => rfl⟩

namespace Objects

variable {objs O : Objects}

theorem getItem_of_lookup {es es' : Entries} {st st' : Option (List UInt8)} {k : String}
    (h : es'.lookup k = es.lookup k) :
    objs.getItem (.dictionary es' st') k = objs.getItem (.dictionary es st) k := by
  simp only [getItem, h]

theorem TypeIs.of_lookup {es es' : Entries} {st st' : Option (List UInt8)} {s : String}
    (h : es'.lookup "/Type" = es.lookup "/Type") (ht : objs.TypeIs (.dictionary es st) s) :
    objs.TypeIs (.dictionary es' st') s := by
  obtain ⟨v, hv, hs⟩ := ht
  exact ⟨v, (getItem_of_lookup h).trans hv, hs⟩

theorem KidsAt.of_lookup {es es' : Entries} {kr : Option Reference} {items : List PdfObject}
    (h : es'.lookup "/Kids" = es.lookup "/Kids") (hk : objs.KidsAt es kr items) :
    objs.KidsAt es' kr items := by
  cases kr <;> simp_all [KidsAt]

theorem PagesNode.countAt {q : Option Reference} {r : Reference} {kr : Option Reference}
    {n : Nat} {items : List PdfObject} (h : objs.PagesNode q r kr n items) :
    objs.countAt (Loc.top r) = .ok n := by
  obtain ⟨es, st, hg, -, -, hc, -⟩ := h
  exact (countAt_top hg _).mpr hc

theorem countRaised_entries {r : Reference} {es : Entries} {st : Option (List UInt8)}
    (hg : objs.get? r = some (.dictionary es st)) :
    ∃ es', objs.countRaised r = some (.dictionary es' st) ∧
      ∀ k, k ≠ "/Count" → es'.lookup k = es.lookup k := by
  cases hn : objs.countAt (Loc.top r) with
  | ok n => exact ⟨_, by rw [countRaised_of_get hg hn, PdfObject.setItem_dictionary],
      fun k hk => lookup_setEntry_of_ne _ _ hk⟩
  | error e => exact ⟨es, by simp [countRaised, hg, hn], fun _ _ => rfl⟩

theorem countAt_of_raised {r : Reference} {es : Entries} {st : Option (List UInt8)} {n : Int}
    (hg : objs.get? r = some (.dictionary es st)) (hn : objs.countAt (Loc.top r) = .ok n)
    (hr : O.get? r = objs.countRaised r) : O.countAt (Loc.top r) = .ok (n + 1) := by
  rw [countRaised_of_get hg hn, PdfObject.setItem_dictionary] at hr
  rw [countAt_top hr]
  simp [getItem, resolve]

theorem PagesNode.raised (hk : objs.KeepsScalars O) {q : Option Reference} {r : Reference}
    {kr : Option Reference} {n : Nat} {items items' : List PdfObject}
    (h : objs.PagesNode q r kr n items) (hr : O.get? r = objs.countRaised r)
    (hkr : ∀ es, objs.KidsAt es kr items → O.KidsAt es kr items') :
    O.PagesNode q r kr (n + 1) items' := by
  obtain ⟨es, st, hg, ht, hp, hc, hkids⟩ := h
  rw [countRaised_of_get hg ((countAt_top hg _).mpr hc), PdfObject.setItem_dictionary] at hr
  have hne : ∀ k, k ≠ "/Count" → (setEntry es "/Count" (.number (n + 1))).lookup k = es.lookup k :=
    fun k hk => lookup_setEntry_of_ne _ _ hk
  refine ⟨_, st, hr, (ht.of_keepsScalars hk).of_lookup (hne _ (by decide)),
    (hne _ (by decide)).trans hp, ?_, (hkr es hkids).of_lookup (hne _ (by decide))⟩
  simp [getItem, resolve]

end Objects

/-- What `insert_page`'s mutations leave in `O`, from the objects `objs` before them: the page
`page` stored under `N` and inserted at place `i` of the `/Kids` of the node `c` (held as `kr`
says), and `/Count` raised on `c` and on the nodes `up` above it. -/
structure InsertEffect (objs O : Objects) (c : Reference) (up : List Reference)
    (kr : Option Reference) (i : Nat) (N : Reference) (page : PdfObject) : Prop where
  keeps : objs.KeepsScalars O
  /-- A dictionary keeps every entry but `/Count` and `/Kids`. -/
  entries : ∀ x es st, objs.get? x = some (.dictionary es st) → ∃ es',
    O.get? x = some (.dictionary es' st) ∧
      ∀ k, k ≠ "/Count" → k ≠ "/Kids" → es'.lookup k = es.lookup k
  dicts : ∀ y es st, objs.get? y = some (.dictionary es st) → y ∉ c :: up → O.get? y = objs.get? y
  arrays : ∀ k items, objs.get? k = some (.array items) → k ∉ kr → O.get? k = objs.get? k
  up : ∀ x ∈ up, O.get? x = objs.countRaised x
  focus : ∀ q n items, objs.PagesNode q c kr n items →
    O.PagesNode q c kr (n + 1) (items.take i ++ .indirect N :: items.drop i)
  page : O.get? N = some (page.setItem "/Parent" (.indirect c))

theorem get?_inserted (objs₁ : Objects) (N : Reference) (page : PdfObject) (L : Loc)
    (f g : PdfObject → PdfObject) (hL : L.ref ≠ N) (z : Reference) :
    ((Objects.modifyAt (objs₁.set N page) L f).modify N g).get? z =
      if z = N then some (g page)
      else if z = L.ref then (objs₁.get? z).map (·.modifyAt L.path f) else objs₁.get? z := by
  simp only [PyDict.get?_modify, Objects.get?_modifyAt, PyDict.get?_set]
  by_cases hz : z = N
  · subst hz; simp [Ne.symm hL]
  · simp [hz]

/-- The mutations of `insert_page` after the `/Count` loop, applied to what the loop left
(`objs₁`: `/Count` raised on the chain `c :: up`), have the effect `InsertEffect` describes. -/
theorem insertEffect {objs objs₁ : Objects} {c : Reference} {up : List Reference}
    {kr : Option Reference} {q : Option Reference} {n : Nat} {items : List PdfObject}
    (hc : objs.PagesNode q c kr n items)
    (hup : ∀ x ∈ up, ∃ es st, objs.get? x = some (.dictionary es st)) (hcup : c ∉ up)
    (hk₁ : objs.KeepsScalars objs₁)
    (hg₁ : ∀ z, objs₁.get? z = if z ∈ c :: up then objs.countRaised z else objs.get? z)
    {N : Reference} (hN : N ∉ objs.keys) (page : PdfObject) (i : Nat) :
    InsertEffect objs ((Objects.modifyAt (objs₁.set N page) (kidsLocOf c kr)
        (·.insertItem i (.indirect N))).modify N (·.setItem "/Parent" (.indirect c)))
      c up kr i N page := by
  obtain ⟨es, st, hg, -, -, -, hkids⟩ := hc
  have hkeyN : ∀ z v, objs.get? z = some v → z ≠ N := fun z v h hz =>
    hN (hz ▸ PyDict.mem_keys_of_get? h)
  -- `/Kids` lives in the node `c` or in the array `K`
  obtain ⟨d, hd, hds⟩ : ∃ d, objs.get? (kidsLocOf c kr).ref = some d ∧ d.isScalar = false := by
    cases kr with
    | none => exact ⟨_, hg, rfl⟩
    | some K => exact ⟨_, hkids.2, rfl⟩
  have hO := get?_inserted objs₁ N page (kidsLocOf c kr) (·.insertItem i (.indirect N))
    (·.setItem "/Parent" (.indirect c)) (hkeyN _ d hd)
  have hLdict : ∀ y es' st', objs.get? y = some (.dictionary es' st') → y ≠ c →
      y ≠ (kidsLocOf c kr).ref := by
    intro y es' st' hy hyc
    cases kr with
    | none => exact hyc
    | some K => rintro rfl; rw [hkids.2] at hy; cases hy
  have hchain : ∀ z ∈ c :: up, ∃ es st, objs.get? z = some (.dictionary es st) := by
    intro z hz
    rcases List.mem_cons.mp hz with rfl | hz
    · exact ⟨es, st, hg⟩
    · exact hup z hz
  have hnotchain : ∀ k items', objs.get? k = some (.array items') → k ∉ c :: up := by
    intro k items' hk hkc
    obtain ⟨_, _, hk'⟩ := hchain k hkc
    rw [hk] at hk'; cases hk'
  have hkeeps : objs.KeepsScalars ((Objects.modifyAt (objs₁.set N page) (kidsLocOf c kr)
      (·.insertItem i (.indirect N))).modify N (·.setItem "/Parent" (.indirect c))) := by
    intro z v hz hv
    rw [hO z, if_neg (hkeyN z v hz), if_neg (by rintro rfl; rw [hd] at hz; cases hz; simp_all)]
    exact hk₁ z v hz hv
  refine ⟨hkeeps, ?entries, ?dicts, ?arrays, ?up, ?focus, by rw [hO, if_pos rfl]⟩
  case dicts =>
    intro y es' st' hy hyc
    rw [hO y, if_neg (hkeyN _ _ hy), if_neg (hLdict y es' st' hy (fun h => hyc (h ▸ by simp))),
      hg₁, if_neg hyc]
  case arrays =>
    intro k items' hk hkr
    have hkL : k ≠ (kidsLocOf c kr).ref := by
      cases kr with
      | none => rintro rfl; rw [hg] at hk; cases hk
      | some K => rintro rfl; exact hkr rfl
    rw [hO k, if_neg (hkeyN _ _ hk), if_neg hkL, hg₁, if_neg (hnotchain k items' hk)]
  case up =>
    intro x hx
    obtain ⟨es', st', hx'⟩ := hup x hx
    rw [hO x, if_neg (hkeyN _ _ hx'), if_neg (hLdict x es' st' hx' (fun h => hcup (h ▸ hx))), hg₁,
      if_pos (List.mem_cons_of_mem _ hx)]
  case entries =>
    intro x es' st' hx
    rw [hO x, if_neg (hkeyN _ _ hx), hg₁]
    obtain ⟨es₁, hr, hes₁⟩ := Objects.countRaised_entries hx
    by_cases hxL : x = (kidsLocOf c kr).ref
    · -- only `c` holding `/Kids` directly is a dictionary where `/Kids` lives
      cases kr with
      | some K => subst hxL; cases hx.symm.trans hkids.2
      | none =>
        obtain rfl : x = c := hxL
        obtain ⟨es₂, hm, hes₂⟩ := modifyAt_single_entries es₁ st' "/Kids"
          (·.insertItem i (.indirect N))
        refine ⟨es₂, ?_, fun k hk hk' => (hes₂ k hk').trans (hes₁ k hk)⟩
        rw [if_pos (show x = (kidsLocOf x none).ref from rfl), if_pos (List.mem_cons_self _ _), hr]
        exact congrArg some hm
    · rw [if_neg hxL]
      split
      · exact ⟨es₁, hr, fun k hk _ => hes₁ k hk⟩
      · exact ⟨es', hx, fun _ _ _ => rfl⟩
  case focus =>
    intro q' n' items' hpn
    have hcount := hpn.countAt
    cases kr with
    | none =>
      obtain ⟨es', st', hg', ht', hp', -, hk'⟩ := hpn
      have hraised := Objects.countRaised_of_get hg' hcount
      have hne : ∀ k, k ≠ "/Count" → k ≠ "/Kids" → (setEntry (setEntry es' "/Count"
          (.number (n' + 1))) "/Kids" (.array (items'.take i ++ .indirect N :: items'.drop i))).lookup k =
          es'.lookup k := fun k h₁ h₂ =>
        (lookup_setEntry_of_ne _ _ h₂).trans (lookup_setEntry_of_ne _ _ h₁)
      have hlk : (setEntry es' "/Count" (.number (n' + 1))).lookup "/Kids" = some (.array items') :=
        (lookup_setEntry_of_ne _ _ (by decide)).trans hk'
      refine ⟨_, st', ?_, (ht'.of_keepsScalars hkeeps).of_lookup (hne _ (by decide) (by decide)),
        (hne _ (by decide) (by decide)).trans hp', ?_, lookup_setEntry_self _ _ _⟩
      · rw [hO c, if_neg (hkeyN _ _ hg), if_pos (show c = (kidsLocOf c none).ref from rfl), hg₁,
          if_pos (List.mem_cons_self _ _), hraised]
        simp [kidsLocOf_none, PdfObject.modifyAt, hlk, PdfObject.insertItem]
      · simp only [Objects.getItem, lookup_setEntry_of_ne _ _ (show "/Count" ≠ "/Kids" by decide),
          lookup_setEntry_self, Objects.resolve]
        simp
    | some K =>
      have hcK : c ≠ K := fun h => by rw [h, hkids.2] at hg; cases hg
      refine Objects.PagesNode.raised hkeeps hpn ?_ fun es' hk' => ⟨hk'.1, ?_⟩
      · rw [hO c, if_neg (hkeyN _ _ hg), if_neg (show c ≠ (kidsLocOf c (some K)).ref from hcK), hg₁,
          if_pos (List.mem_cons_self _ _)]
      · rw [hO K, if_neg (hkeyN _ _ hk'.2), if_pos (show K = (kidsLocOf c (some K)).ref from rfl),
          hg₁, if_neg (hnotchain K _ hk'.2), hk'.2]
        rfl

namespace BasePdfFileWriter

/-- `insert_page` past the loop, on a plan for the node `c`: the page is stored under the next
number, inserted into `/Kids`, given its `/Parent`, and `c` and a separate `/Kids` array are
marked. -/
theorem insertNewPage_ok (w : BasePdfFileWriter) (page : PdfObject) {c : Reference}
    {kr : Option Reference} (i : Nat) {items : List PdfObject}
    (hfresh : (⟨0, w.lastobjId + 1⟩ : Reference) ∉ w.objects.keys)
    (hkids : w.objects.objectAt (kidsLocOf c kr) = some (.array items))
    (hkr : ∀ K ∈ kr, K ≠ c) :
    w.insertNewPage page ⟨.indirect c, Loc.top c, i, .indirect c, kidsLocOf c kr, kr⟩ =
      (.ok ⟨0, w.lastobjId + 1⟩, { w with
        objects := (Objects.modifyAt (w.objects.set ⟨0, w.lastobjId + 1⟩ page) (kidsLocOf c kr)
          (·.insertItem i (.indirect ⟨0, w.lastobjId + 1⟩))).modify ⟨0, w.lastobjId + 1⟩
          (·.setItem "/Parent" (.indirect c))
        lastobjId := w.lastobjId + 1
        updated := w.updated ++ .indirect c :: kr.toList.map .indirect }) := by
  have hne : (kidsLocOf c kr).ref ≠ ⟨0, w.lastobjId + 1⟩ := by
    intro h
    simp only [Objects.objectAt] at hkids
    obtain ⟨o, ho, -⟩ := Option.bind_eq_some.mp hkids
    exact hfresh (h ▸ PyDict.mem_keys_of_get? ho)
  have hkids' : Objects.objectAt (w.objects.set ⟨0, w.lastobjId + 1⟩ page) (kidsLocOf c kr) =
      some (.array items) := by
    simp only [Objects.objectAt, PyDict.get?_set, if_neg hne] at hkids ⊢; exact hkids
  simp only [insertNewPage, addObject, Objects.mutateArray, hkids', Objects.modifyAt_top]
  cases kr with
  | none => rfl
  | some K => simp [markUpdate, PdfObject.isRef, Ne.symm (hkr K rfl)]

end BasePdfFileWriter

end PyHanko
