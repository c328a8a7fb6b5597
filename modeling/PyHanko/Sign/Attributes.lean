import PyHanko.Generic

/-!
# CMS attribute providers

`pyhanko.sign.attributes`: a provider names a CMS attribute type and builds its value;
`get_attribute` wraps the value into an attribute, and gives `None` for a missing one. The
ASN.1 classes of `asn1crypto`, the helpers of `pyhanko.sign.general` and the hash functions are
not among the sources: values are of one abstract type `Value` (Python objects), and the calls
the providers make are the fields of `CmsLib`. A coroutine is run to its end, so
`build_attr_value` returns a value or `None`, or raises.

`AdobeRevinfoProvider` is the one provider with state: it stores the archive it builds. So
every provider but the timestamp token's gives the same result on every call of a run, whatever
the `dry_run` flags (`runGetAttribute_constant`); the timestamp token's provider asks for a
dummy response in a dry run and never for a real timestamp (`getAttribute_tst`).
-/

namespace PyHanko

set_option autoImplicit false

/-- The calls the providers make outside `pyhanko.sign.attributes`. -/
structure CmsLib (Value : Type) where
  /-- `as_signing_certificate_v2(signing_cert)`. -/
  asSigningCertificateV2 : Value → Value
  /-- `cms.Time({'utc_time': core.UTCTime(timestamp)})`. -/
  utcTime : Value → Value
  /-- `asn1_pdf.RevocationInfoArchival(revinfo_dict)`, the dictionary holding `'ocsp'` and
  `'crl'` where given. -/
  revocationInfoArchival : Option (List Value) → Option (List Value) → Value
  /-- `cms.CMSAlgorithmProtection` of a digest algorithm's name and a signature algorithm. -/
  algorithmProtection : String → Value → Value
  /-- `get_pyca_cryptography_hash(name)`, as the function hashing a whole input; it raises on a
  name it does not know. -/
  hash : String → Except String (List UInt8 → List UInt8)
  /-- `simple_cms_attribute(attr_type, value)`. -/
  simpleCmsAttribute : String → Value → Value

/-- A `TimeStamper`, by its two coroutines. -/
structure TimeStamper (Value : Type) where
  /-- `async_timestamp(message_digest, md_algorithm)`. -/
  timestamp : List UInt8 → String → Except String Value
  /-- `async_dummy_response(md_algorithm)`. -/
  dummyResponse : String → Except String Value

/-- The providers of the module, with the fields their constructors set. -/
inductive AttributeProvider (Value : Type) where
  | signingCertificateV2 (signingCert : Value)
  | signingTime (timestamp : Value)
  | adobeRevinfo (value : Option Value) (ocspResponses crls : Option (List Value))
  | cmsAlgorithmProtection (digestAlgo : String) (signatureAlgo : Value)
  | tst (digestAlgorithm : String) (data : List UInt8) (timestamper : TimeStamper Value)
      (attrType : String)

/-- `TSTProvider(digest_algorithm, data_to_ts, timestamper)`, with the default `attr_type`. -/
def tstProvider {Value : Type} (digestAlgorithm : String) (data : List UInt8)
    (timestamper : TimeStamper Value) : AttributeProvider Value :=
  .tst digestAlgorithm data timestamper "signature_time_stamp_token"

/-- A list as Python's `if xs:` sees it: present and non-empty. -/
def nonEmpty {α : Type} : Option (List α) → Option (List α)
  | some (x :: xs) => some (x :: xs)
  | _ => none

namespace AttributeProvider

variable {Value : Type} (lib : CmsLib Value)

/-- `attribute_type`. -/
def attributeType : AttributeProvider Value → String
  | signingCertificateV2 _ => "signing_certificate_v2"
  | signingTime _ => "signing_time"
  | adobeRevinfo .. => "adobe_revocation_info_archival"
  | cmsAlgorithmProtection .. => "cms_algorithm_protection"
  | tst _ _ _ attrType => attrType

/-- Whether the provider is a `TSTProvider`. -/
def isTst : AttributeProvider Value → Bool
  | tst .. => true
  | _ => false

/-- `build_attr_value(dry_run)`: the value or `None`, and the provider afterwards. -/
def buildAttrValue :
    AttributeProvider Value → Bool → Except String (Option Value) × AttributeProvider Value
  | p@(signingCertificateV2 cert), _ => (.ok (some (lib.asSigningCertificateV2 cert)), p)
  | p@(signingTime timestamp), _ => (.ok (some (lib.utcTime timestamp)), p)
  | p@(adobeRevinfo (some value) _ _), _ => (.ok (some value), p)
  | p@(adobeRevinfo none ocspResponses crls), _ =>
    match nonEmpty ocspResponses, nonEmpty crls with
    | none, none => (.ok none, p)
    | ocsp, crl =>
      let value := lib.revocationInfoArchival ocsp crl
      (.ok (some value), adobeRevinfo (some value) ocspResponses crls)
  | p@(cmsAlgorithmProtection digestAlgo signatureAlgo), _ =>
    (.ok (some (lib.algorithmProtection digestAlgo signatureAlgo)), p)
  | p@(tst digestAlgorithm data timestamper _), dryRun =>
    (do
      let md ← lib.hash digestAlgorithm
      if dryRun then some <$> timestamper.dummyResponse digestAlgorithm
      else some <$> timestamper.timestamp (md data) digestAlgorithm, p)

/-- `get_attribute(dry_run)`: the attribute, or `None` when there is no value. -/
def getAttribute (p : AttributeProvider Value) (dryRun : Bool) :
    Except String (Option Value) × AttributeProvider Value :=
  let (value, p') := p.buildAttrValue lib dryRun
  (value.map (Option.map (lib.simpleCmsAttribute p'.attributeType)), p')

/-- Calls of `get_attribute` one after another on one provider: their results, and the provider
after them. -/
def runGetAttribute : AttributeProvider Value → List Bool →
    List (Except String (Option Value)) × AttributeProvider Value
  | p, [] => ([], p)
  | p, dryRun :: rest =>
    let (r, p') := p.getAttribute lib dryRun
    let (rs, p'') := runGetAttribute p' rest
    (r :: rs, p'')

/-- One call either leaves the provider as it was, or is the first successful call of an
`AdobeRevinfoProvider` without a value, which stores the archive it returns. -/
theorem buildAttrValue_cases (p : AttributeProvider Value) (dryRun : Bool) :
    (p.buildAttrValue lib dryRun).2 = p ∨
      ∃ ocsp crls v, p = adobeRevinfo none ocsp crls ∧
        p.buildAttrValue lib dryRun = (.ok (some v), adobeRevinfo (some v) ocsp crls) := by
  cases p with
  | adobeRevinfo value ocsp crls =>
    cases value with
    | some v => exact .inl rfl
    | none =>
      simp only [buildAttrValue]
      split
      · exact .inl rfl
      · exact .inr ⟨ocsp, crls, _, rfl, rfl⟩
  | _ => exact .inl rfl

theorem attributeType_buildAttrValue (p : AttributeProvider Value) (dryRun : Bool) :
    (p.buildAttrValue lib dryRun).2.attributeType = p.attributeType := by
  rcases buildAttrValue_cases lib p dryRun with h | ⟨_, _, _, rfl, h⟩
  · rw [h]
  · rw [h]; rfl

theorem isTst_buildAttrValue (p : AttributeProvider Value) (dryRun : Bool) :
    (p.buildAttrValue lib dryRun).2.isTst = p.isTst := by
  rcases buildAttrValue_cases lib p dryRun with h | ⟨_, _, _, rfl, h⟩
  · rw [h]
  · rw [h]; rfl

theorem buildAttrValue_eq_none_iff (p : AttributeProvider Value) (dryRun : Bool) :
    (p.buildAttrValue lib dryRun).1 = .ok none ↔
      ∃ ocsp crls, p = adobeRevinfo none ocsp crls ∧ nonEmpty ocsp = none ∧ nonEmpty crls = none := by
  constructor
  · intro h
    cases p with
    | adobeRevinfo value ocsp crls =>
      cases value with
      | some v => cases h
      | none =>
        simp only [buildAttrValue] at h
        split at h
        · exact ⟨ocsp, crls, rfl, by assumption, by assumption⟩
        · cases h
    | tst digestAlgorithm data timestamper _ =>
      simp only [buildAttrValue] at h
      obtain ⟨md, -, h⟩ := exists_of_bind_eq_ok h
      split at h <;> obtain ⟨_, -, h⟩ := exists_of_map_eq_ok h <;> cases h
    | _ => cases h
  · rintro ⟨ocsp, crls, rfl, ho, hc⟩
    simp only [buildAttrValue, ho, hc]

theorem buildAttrValue_dryRun {p : AttributeProvider Value} (hp : p.isTst = false)
    (dryRun : Bool) : p.buildAttrValue lib dryRun = p.buildAttrValue lib false := by
  cases p with
  | tst => cases hp
  | adobeRevinfo value => cases value <;> rfl
  | _ => rfl

theorem buildAttrValue_again {p : AttributeProvider Value} (hp : p.isTst = false)
    (dryRun : Bool) :
    ((p.buildAttrValue lib dryRun).2.buildAttrValue lib false).1 =
      (p.buildAttrValue lib false).1 := by
  rw [buildAttrValue_dryRun lib hp dryRun]
  rcases buildAttrValue_cases lib p false with h | ⟨_, _, _, rfl, h⟩
  · rw [h]
  · rw [h]; rfl

/-- Every call of a run, on any provider but the timestamp token's and with any `dry_run`
flags, returns what the first call would. -/
theorem runGetAttribute_constant :
    ∀ {p : AttributeProvider Value} (dryRuns : List Bool), p.isTst = false →
      ∀ r ∈ (runGetAttribute lib p dryRuns).1, r = (p.getAttribute lib false).1
  | _, [], _ => by simp [runGetAttribute]
  | p, dryRun :: rest, hp => by
    have hstep : (p.getAttribute lib dryRun).1 = (p.getAttribute lib false).1 := by
      simp only [getAttribute, buildAttrValue_dryRun lib hp dryRun]
    have hnext : ((p.getAttribute lib dryRun).2.getAttribute lib false).1 =
        (p.getAttribute lib false).1 := by
      simp only [getAttribute, attributeType_buildAttrValue, buildAttrValue_again lib hp]
    have ih := runGetAttribute_constant rest
      (p := (p.getAttribute lib dryRun).2) ((isTst_buildAttrValue lib p dryRun).trans hp)
    simp only [runGetAttribute, List.mem_cons]
    rintro r (rfl | hr)
    · exact hstep
    · exact (ih r hr).trans hnext

theorem buildAttrValue_snd_of_not_pending {p : AttributeProvider Value}
    (hp : ∀ ocsp crls, p = adobeRevinfo none ocsp crls → nonEmpty ocsp = none ∧ nonEmpty crls = none)
    (dryRun : Bool) : (p.buildAttrValue lib dryRun).2 = p := by
  rcases buildAttrValue_cases lib p dryRun with h | ⟨ocsp, crls, v, rfl, h⟩
  · exact h
  · obtain ⟨ho, hc⟩ := hp ocsp crls rfl
    simp only [buildAttrValue, ho, hc] at h
    cases h

/-- A provider that no call changes answers each call of a run as a fresh provider would. -/
theorem runGetAttribute_of_stable {p : AttributeProvider Value}
    (hp : ∀ dryRun, (p.buildAttrValue lib dryRun).2 = p) :
    ∀ dryRuns : List Bool,
      runGetAttribute lib p dryRuns = (dryRuns.map fun dryRun => (p.getAttribute lib dryRun).1, p)
  | [] => rfl
  | dryRun :: rest => by
    simp only [runGetAttribute, getAttribute, hp dryRun, runGetAttribute_of_stable hp rest,
      List.map_cons]

theorem length_runGetAttribute :
    ∀ (p : AttributeProvider Value) (dryRuns : List Bool),
      (runGetAttribute lib p dryRuns).1.length = dryRuns.length
  | _, [] => rfl
  | p, _ :: rest => by
    simp only [runGetAttribute, List.length_cons, length_runGetAttribute _ rest]

theorem getAttribute_eq_ok_none_iff (p : AttributeProvider Value) (dryRun : Bool) :
    (p.getAttribute lib dryRun).1 = .ok none ↔ (p.buildAttrValue lib dryRun).1 = .ok none := by
  cases h : (p.buildAttrValue lib dryRun).1 with
  | error e => simp [getAttribute, h, Except.map]
  | ok v => cases v <;> simp [getAttribute, h, Except.map]

/-- The timestamp token's provider hashes its data, then returns the timestamper's dummy response
in a dry run and its timestamp of the digest otherwise. -/
theorem getAttribute_tst (digestAlgorithm : String) (data : List UInt8)
    (timestamper : TimeStamper Value) (attrType : String) (dryRun : Bool) :
    ((tst digestAlgorithm data timestamper attrType).getAttribute lib dryRun).1 =
      (lib.hash digestAlgorithm >>= fun md =>
        if dryRun then timestamper.dummyResponse digestAlgorithm
        else timestamper.timestamp (md data) digestAlgorithm).map
        fun token => some (lib.simpleCmsAttribute attrType token) := by
  simp only [getAttribute, buildAttrValue, attributeType]
  cases lib.hash digestAlgorithm with
  | error e => rfl
  | ok md =>
    cases dryRun
    · simp only [bind, Except.bind, Bool.false_eq_true, if_false]
      cases timestamper.timestamp (md data) digestAlgorithm <;> rfl
    · simp only [bind, Except.bind, if_true]
      cases timestamper.dummyResponse digestAlgorithm <;> rfl

theorem buildAttrValue_adobeRevinfo_stores {ocsp crls : Option (List Value)}
    (h : ¬ (nonEmpty ocsp = none ∧ nonEmpty crls = none)) (dryRun : Bool) :
    ((adobeRevinfo none ocsp crls).buildAttrValue lib dryRun).2 =
      adobeRevinfo (some (lib.revocationInfoArchival (nonEmpty ocsp) (nonEmpty crls))) ocsp crls := by
  simp only [buildAttrValue]
  split
  · rename_i ho hc
    exact absurd ⟨ho, hc⟩ h
  · rfl

/-- For every provider and every sequence of `dry_run` flags, calling `get_attribute` again and
again on it. The timestamp token's provider keeps no state: each call hashes the data and
returns the timestamper's dummy response in a dry run, its timestamp of the digest otherwise.
Every other provider returns on each call what its first call with `dry_run=False` returns. An
`AdobeRevinfoProvider` given no value but OCSP responses or CRLs stores on its first call the
archive it builds, and keeps it; every other provider is left as it was. A result is `None`
exactly for an `AdobeRevinfoProvider` given no value and neither OCSP responses nor CRLs. -/
theorem runGetAttribute_spec (p : AttributeProvider Value) (dryRuns : List Bool) :
    (∀ digestAlgorithm data timestamper attrType,
      p = tst digestAlgorithm data timestamper attrType →
      runGetAttribute lib p dryRuns = (dryRuns.map fun dryRun =>
        (lib.hash digestAlgorithm >>= fun md =>
          if dryRun then timestamper.dummyResponse digestAlgorithm
          else timestamper.timestamp (md data) digestAlgorithm).map
          fun token => some (lib.simpleCmsAttribute attrType token), p)) ∧
    (p.isTst = false → (runGetAttribute lib p dryRuns).1 =
      List.replicate dryRuns.length (p.getAttribute lib false).1) ∧
    (∀ ocsp crls, p = adobeRevinfo none ocsp crls →
      ¬ (nonEmpty ocsp = none ∧ nonEmpty crls = none) → dryRuns ≠ [] →
      (runGetAttribute lib p dryRuns).2 =
        adobeRevinfo (some (lib.revocationInfoArchival (nonEmpty ocsp) (nonEmpty crls))) ocsp crls) ∧
    ((∀ ocsp crls, p = adobeRevinfo none ocsp crls →
        dryRuns = [] ∨ (nonEmpty ocsp = none ∧ nonEmpty crls = none)) →
      (runGetAttribute lib p dryRuns).2 = p) ∧
    ∀ r ∈ (runGetAttribute lib p dryRuns).1, (r = .ok none ↔
      ∃ ocsp crls, p = adobeRevinfo none ocsp crls ∧ nonEmpty ocsp = none ∧ nonEmpty crls = none) := by
  have hconst : p.isTst = false → (runGetAttribute lib p dryRuns).1 =
      List.replicate dryRuns.length (p.getAttribute lib false).1 := fun hp =>
    List.eq_replicate_iff.mpr
      ⟨length_runGetAttribute lib p dryRuns, runGetAttribute_constant lib dryRuns hp⟩
  refine ⟨fun d data ts a hp => ?_, hconst, fun ocsp crls hp hne hrun => ?_, fun hp => ?_,
    fun r hr => ?_⟩
  · -- the timestamp token's provider
    subst hp
    rw [runGetAttribute_of_stable lib fun _ => rfl]
    simp only [getAttribute_tst]
  · -- the first call stores the archive, which every later call keeps
    subst hp
    obtain ⟨dryRun, rest, rfl⟩ := List.exists_cons_of_ne_nil hrun
    simp only [runGetAttribute, getAttribute, buildAttrValue_adobeRevinfo_stores lib hne]
    exact congrArg Prod.snd (runGetAttribute_of_stable lib (fun _ => rfl) rest)
  · cases dryRuns with
    | nil => rfl
    | cons dryRun rest =>
      exact congrArg Prod.snd (runGetAttribute_of_stable lib (buildAttrValue_snd_of_not_pending lib
        fun ocsp crls h => (hp ocsp crls h).resolve_left nofun) _)
  · -- every result is that of one call on the provider as constructed
    have hcall : ∃ dryRun, r = (p.getAttribute lib dryRun).1 := by
      cases hp : p.isTst
      · rw [hconst hp] at hr
        exact ⟨false, List.eq_of_mem_replicate hr⟩
      · rw [runGetAttribute_of_stable lib (buildAttrValue_snd_of_not_pending lib
          fun _ _ h => by subst h; cases hp), List.mem_map] at hr
        obtain ⟨dryRun, -, rfl⟩ := hr
        exact ⟨dryRun, rfl⟩
    obtain ⟨dryRun, rfl⟩ := hcall
    rw [getAttribute_eq_ok_none_iff, buildAttrValue_eq_none_iff]

end AttributeProvider

end PyHanko
