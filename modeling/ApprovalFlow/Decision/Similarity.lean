import ApprovalFlow.Decision.Retrieval

/-!
# The similarity layer

Vectors and the included sections are kept by slug, and two titles may give the same slug.

* `InFloor`, `Reaches`: what decides over a section by itself.
* `hit_iff`: a slug has the vector of its last section.
* `OwnSlugs`: no section outside the floor is decided over by another; `ownSlugs_of_nodup`: so it is
  where no two sections share a slug.
* `similarity_layer_iff`: the layer judges each section by its own words exactly under `OwnSlugs`.
-/

namespace ApprovalFlow
open Numeric PolicyText

variable {rt : Runtime} {invoice : Invoice} {index : PolicyIndex}
    {sections : List PolicySection} {idf : Weights}
  {s : PolicySection} {i : ℕ} {slug : String}

/-- The section at a position is in the floor: mandatory, or the first that names the invoice's category. -/
def InFloor (invoice : Invoice) (sections : List PolicySection) (i : ℕ) (s : PolicySection) : Prop :=
  isMandatory s = true ∨ sections.findIdx? (namesCategory invoice.category) = some i

instance : Decidable (InFloor invoice sections i s) := inferInstanceAs (Decidable (_ ∨ _))

/-- The words of the section, with the weights of the index, are similar enough to those of the invoice. -/
def Reaches (rt : Runtime) (invoice : Invoice) (idf : Weights) (s : PolicySection) : Prop :=
  ∃ query v x, buildQueryVector rt invoice idf = .ok query ∧ tokensVector rt idf s.tokens = .ok v ∧
    cosineSimilarity rt query v = .ok x ∧ similarityThreshold.le x = true

/-- A section of the floor has the slug. -/
def FloorSlug (invoice : Invoice) (sections : List PolicySection) (slug : String) : Prop :=
  ∃ i s, sections[i]? = some s ∧ InFloor invoice sections i s ∧ s.sectionId = slug

/-- The last section with the slug. -/
def lastWith (sections : List PolicySection) (slug : String) : Option PolicySection :=
  sections.reverse.find? (·.sectionId = slug)

/-! ## By slug -/

theorem get?_documents (sections : List PolicySection) (slug : String) :
    (documents sections).get? slug = (lastWith sections slug).map (·.tokens) := by
  unfold documents lastWith
  rw [Dict.get?_ofList, ← List.map_reverse, List.find?_map, Option.map_map]
  rfl

theorem hit_iff {query : Weights} (h : Indexes rt index.sections index.idf index.sectionVectors)
    (hquery : buildQueryVector rt invoice index.idf = .ok query) : Hit rt index query slug ↔
      ∃ last, lastWith index.sections slug = some last ∧ Reaches rt invoice index.idf last := by
  constructor
  · rintro ⟨v, x, hv, hx, hle⟩
    obtain ⟨tokens, htokens, hvector⟩ := h.vectors slug v hv
    rw [get?_documents] at htokens
    obtain ⟨last, hlast, rfl⟩ := Option.map_eq_some_iff.mp htokens
    exact ⟨last, hlast, query, v, x, hquery, hvector, hx, hle⟩
  · rintro ⟨last, hlast, query', v, x, hquery', hvector, hx, hle⟩
    cases hquery.symm.trans hquery'
    have hdocument : (documents index.sections).get? slug = some last.tokens := by
      rw [get?_documents, hlast]
      rfl
    obtain ⟨v', hv'⟩ := Dict.get?_of_mem_keys ((h.slugs slug).mpr (Dict.mem_keys_of_get? hdocument))
    obtain ⟨tokens, htokens, hvector'⟩ := h.vectors slug v' hv'
    cases hdocument.symm.trans htokens
    cases hvector.symm.trans hvector'
    exact ⟨v, x, hv', hx, hle⟩

theorem mem_floor_iff : slug ∈ (includeFloor invoice sections).keys ↔ FloorSlug invoice sections slug := by
  rw [mem_includeFloor]
  constructor
  · rintro (⟨s, hs, hmandatory, rfl⟩ | ⟨s, hfind, rfl⟩)
    · obtain ⟨i, hi⟩ := List.mem_iff_getElem?.mp hs
      exact ⟨i, s, hi, .inl hmandatory, rfl⟩
    · obtain ⟨hnames, i, hi, rfl, hbefore⟩ := List.find?_eq_some_iff_getElem.mp hfind
      refine ⟨i, _, List.getElem?_eq_getElem hi,
        .inr (List.findIdx?_eq_some_iff_getElem.mpr ⟨hi, hnames, ?_⟩), rfl⟩
      intro j hj
      simpa using hbefore j hj
  · rintro ⟨i, s, hs, hmandatory | hfirst, rfl⟩
    · exact .inl ⟨s, List.mem_of_getElem? hs, hmandatory, rfl⟩
    · obtain ⟨hi, hnames, hbefore⟩ := List.findIdx?_eq_some_iff_getElem.mp hfirst
      obtain ⟨-, rfl⟩ := List.getElem?_eq_some_iff.mp hs
      refine .inr ⟨_, List.find?_eq_some_iff_getElem.mpr ⟨hnames, i, hi, rfl, fun j hj => ?_⟩, rfl⟩
      simpa using hbefore j hj

/-- A section that reaches the threshold has a word of the invoice. -/
theorem Reaches.shares (h : Reaches rt invoice idf s) : ∃ t ∈ s.tokens, t ∈ queryTokens invoice := by
  obtain ⟨query, v, x, hquery, hvector, hx, hle⟩ := h
  obtain ⟨query', hquery', hwords⟩ := tokensVector_ok rt idf (queryTokens invoice)
  obtain ⟨v', hvector', hwords'⟩ := tokensVector_ok rt idf s.tokens
  cases hquery.symm.trans hquery'
  cases hvector.symm.trans hvector'
  obtain ⟨x', hx', hzero⟩ := cosineSimilarity_ok rt query v
  cases hx.symm.trans hx'
  by_contra hnone
  have hx0 : x = .zero := hzero fun t ht ht' => hnone ⟨t, hwords' t ht', hwords t ht⟩
  rw [hx0] at hle
  exact absurd hle (by decide +kernel)

/-! ## Section by section -/

/-- A section outside the floor is included only if it has a word of the invoice, and exactly if its own
words reach the threshold. -/
def JudgedByItself (rt : Runtime) (policy : String) (invoice : Invoice) : Prop :=
  ∃ index result, parsePolicyIndex rt policy = .ok index ∧
    retrieveRelevantPolicyText rt invoice index = .ok result ∧
    ∀ i s, index.sections[i]? = some s → ¬ InFloor invoice index.sections i s →
      (s.sectionId ∈ result.sectionIds → ∃ t ∈ s.tokens, t ∈ queryTokens invoice) ∧
      (s.sectionId ∈ result.sectionIds ↔ Reaches rt invoice index.idf s)

/-- For every section outside the floor: where one of the floor has its slug it reaches the threshold
itself, and elsewhere the last section with its slug reaches it exactly if it does. -/
structure OwnSlugs (rt : Runtime) (invoice : Invoice) (index : PolicyIndex) : Prop where
  floor : ∀ i s, index.sections[i]? = some s → ¬ InFloor invoice index.sections i s →
    FloorSlug invoice index.sections s.sectionId → Reaches rt invoice index.idf s
  last : ∀ i s last, index.sections[i]? = some s → ¬ InFloor invoice index.sections i s →
    ¬ FloorSlug invoice index.sections s.sectionId → lastWith index.sections s.sectionId = some last →
    (Reaches rt invoice index.idf last ↔ Reaches rt invoice index.idf s)

theorem lastWith_of_mem (h : s ∈ sections) : ∃ last, lastWith sections s.sectionId = some last := by
  apply Option.ne_none_iff_exists'.mp
  intro hnone
  exact List.find?_eq_none.mp hnone s (List.mem_reverse.mpr h) (by simp)

/-- Where no two sections share a slug, none stands in for another. -/
theorem ownSlugs_of_nodup (h : (index.sections.map (·.sectionId)).Nodup) : OwnSlugs rt invoice index := by
  have hsame {i j : ℕ} {s s' : PolicySection} (hs : index.sections[i]? = some s)
      (hs' : index.sections[j]? = some s') (hslug : s'.sectionId = s.sectionId) : j = i := by
    have hget : (index.sections.map (·.sectionId))[j]? = (index.sections.map (·.sectionId))[i]? := by
      rw [List.getElem?_map, List.getElem?_map, hs, hs']
      exact congrArg some hslug
    apply (List.getElem?_inj ?_ h).mp hget
    rw [List.length_map]
    exact (List.getElem?_eq_some_iff.mp hs').1
  constructor
  case floor =>
    rintro i s hs hout ⟨j, f, hf, hin, hslug⟩
    obtain rfl := hsame hs hf hslug
    cases hs.symm.trans hf
    exact absurd hin hout
  case last =>
    intro i s last hs hout hno hlast
    obtain ⟨j, hj⟩ := List.mem_iff_getElem?.mp (List.mem_reverse.mp (List.mem_of_find?_eq_some hlast))
    obtain rfl := hsame hs hj (by simpa using List.find?_some hlast)
    cases hs.symm.trans hj
    rfl

theorem mem_sectionIds_iff (h : Indexes rt index.sections index.idf index.sectionVectors)
    {result : RetrievedPolicy}
    (hresult : retrieveRelevantPolicyText rt invoice index = .ok result) (hs : s ∈ index.sections) :
    s.sectionId ∈ result.sectionIds ↔ FloorSlug invoice index.sections s.sectionId ∨
      ∃ last, lastWith index.sections s.sectionId = some last ∧ Reaches rt invoice index.idf last := by
  obtain ⟨query, included, hquery, hkeys, hretrieve⟩ := retrieve_ok h invoice
  cases hresult.symm.trans hretrieve
  have hincluded : s.sectionId ∈
      (index.sections.filter fun s => s.sectionId ∈ included.keys).map (·.sectionId) ↔
      s.sectionId ∈ included.keys := by
    rw [List.mem_map]
    constructor
    · rintro ⟨s', hs', hslug⟩
      rw [← hslug]
      exact of_decide_eq_true (List.mem_filter.mp hs').2
    · exact fun hin => ⟨s, List.mem_filter.mpr ⟨hs, decide_eq_true hin⟩, rfl⟩
  rw [hincluded, hkeys, mem_floor_iff, hit_iff h hquery]
  exact or_congr_right ⟨And.right, fun hlast => ⟨List.mem_map_of_mem hs, hlast⟩⟩

/-- **The similarity layer** judges each section by its own words exactly where no other section decides
over its slug. -/
theorem similarity_layer_iff (rt : Runtime) (policy : String) (invoice : Invoice) :
    JudgedByItself rt policy invoice ↔
      ∃ index, parsePolicyIndex rt policy = .ok index ∧ OwnSlugs rt invoice index := by
  obtain ⟨index, hparse, -, hindexes⟩ := parsePolicyIndex_ok rt policy
  obtain ⟨keep, result, hresult, -⟩ := retrieve_keeps hindexes invoice
  have hmem {i : ℕ} {s : PolicySection} (hs : index.sections[i]? = some s) :=
    mem_sectionIds_iff hindexes hresult (List.mem_of_getElem? hs)
  constructor
  · rintro ⟨index', result', hparse', hresult', hjudged⟩
    cases hparse.symm.trans hparse'
    cases hresult.symm.trans hresult'
    refine ⟨index, hparse, fun i s hs hout hfloor => ?_, fun i s last hs hout hno hlast => ?_⟩
    · exact (hjudged i s hs hout).2.mp ((hmem hs).mpr (.inl hfloor))
    · rw [← (hjudged i s hs hout).2, hmem hs, or_iff_right hno, hlast]
      simp
  · rintro ⟨index', hparse', hown⟩
    cases hparse.symm.trans hparse'
    refine ⟨index, result, hparse, hresult, fun i s hs hout => ?_⟩
    have hreaches : s.sectionId ∈ result.sectionIds ↔ Reaches rt invoice index.idf s := by
      obtain ⟨last, hlast⟩ := lastWith_of_mem (List.mem_of_getElem? hs)
      rw [hmem hs]
      by_cases hfloor : FloorSlug invoice index.sections s.sectionId
      · exact iff_of_true (.inl hfloor) (hown.floor i s hs hout hfloor)
      · rw [or_iff_right hfloor, hlast, ← hown.last i s last hs hout hfloor hlast]
        simp
    exact ⟨fun hin => (hreaches.mp hin).shares, hreaches⟩

/-- A policy with one section. -/
def wineRule : String := "## Global-rules\nAlcohol wine"

/-- The same section after one whose title gives the same slug. -/
def wineRules : String := "## Global rules\n" ++ wineRule

/-- The section about wine is retrieved for a laptop because another one has its slug. -/
theorem wine_retrieved_for_laptop :
    (parsePolicyIndex plainRuntime wineRule >>= retrieveRelevantPolicyText plainRuntime laptop).toOption.map
      (·.sectionIds) = some [] ∧
    (parsePolicyIndex plainRuntime wineRules >>=
      retrieveRelevantPolicyText plainRuntime laptop).toOption.map
      (·.sectionIds) = some ["global_rules", "global_rules"] ∧
    ¬ JudgedByItself plainRuntime wineRules laptop := by
  have hids :
      (parsePolicyIndex plainRuntime wineRules >>=
        retrieveRelevantPolicyText plainRuntime laptop).toOption.map
      (·.sectionIds) = some ["global_rules", "global_rules"] := by decide +kernel
  refine ⟨by decide +kernel, hids, ?_⟩
  rintro ⟨index, result, hparse, hresult, hjudged⟩
  have hsections : index.sections =
      [⟨"global_rules", "Global rules", ""⟩, ⟨"global_rules", "Global-rules", "Alcohol wine"⟩] := by
    rw [(parsePolicyIndex_eq hparse).2]
    decide +kernel
  rw [hparse] at hids
  have hresult' : (retrieveRelevantPolicyText plainRuntime laptop index).toOption.map (·.sectionIds) =
      some ["global_rules", "global_rules"] := hids
  rw [hresult] at hresult'
  have hresultIds : result.sectionIds = ["global_rules", "global_rules"] := Option.some.inj hresult'
  have hwine := hjudged 1 ⟨"global_rules", "Global-rules", "Alcohol wine"⟩ (by rw [hsections]; rfl)
    (by rw [hsections]; decide +kernel)
  rw [hresultIds] at hwine
  exact absurd (hwine.1 (by decide)) (by decide +kernel)

end ApprovalFlow
