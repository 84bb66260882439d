import ApprovalFlow.Decision.PolicyIndex
import Mathlib.Algebra.Order.BigOperators.Group.List
import Mathlib.Data.List.DropRight
import Mathlib.Data.List.TakeWhile

/-!
# The floor of the retrieval

* `join_splitHeaders`, `splitHeaders_iff`: the pieces of a policy; it has one piece without a header.
* `normalize_ok`, `weighted_ok`, `cosineSimilarity_ok`, `buildTfidf_ok`: no number is out of range and no
  key is missing.
* `retrieve_ok`: what is retrieved, by slugs.
* `Parses`: the section of a piece, by its first line and the rest; `Keeps`: what a retrieval keeps of an
  index.
* `retrieval_floor`: every policy text is parsed, and what is retrieved keeps the floor.
-/

namespace ApprovalFlow
open Numeric PolicyText

/-! ## Pieces -/

namespace PolicyText

/-- A header at the start of a line; `start` holds where the text itself starts a line. -/
def HasHeader (start : Bool) (cs : List Char) : Prop :=
  start = true ∧ ['#', '#', ' '] <+: cs ∨ ['\n', '#', '#', ' '] <:+: cs

/-- Splitting loses nothing but the headers. -/
theorem join_splitHeaders (start : Bool) (cs : List Char) :
    (splitHeaders start cs).1 ++ (splitHeaders start cs).2.flatMap (['#', '#', ' '] ++ ·) = cs := by
  fun_induction splitHeaders start cs with
  | case1 start => rfl
  | case2 cs piece pieces h ih =>
    rw [h] at ih
    simpa using ih
  | case3 start c cs hno piece pieces h ih =>
    rw [h] at ih
    simpa using ih

theorem splitHeaders_iff (start : Bool) (cs : List Char) :
    (splitHeaders start cs).2 ≠ [] ↔ HasHeader start cs := by
  unfold HasHeader
  fun_induction splitHeaders start cs with
  | case1 start => simp
  | case2 cs piece pieces h ih => simp
  | case3 start c cs hno piece pieces h ih =>
    have hhead : ¬ (start = true ∧ ['#', '#', ' '] <+: c :: cs) := by
      rintro ⟨rfl, hfirst⟩
      obtain ⟨rfl, rest, rfl⟩ := List.cons_prefix_cons.mp hfirst
      exact hno rest rfl rfl rfl
    have hline : ['\n', '#', '#', ' '] <+: c :: cs ↔ (c == '\n') = true ∧ ['#', '#', ' '] <+: cs := by
      rw [List.cons_prefix_cons, beq_iff_eq, eq_comm (a := c)]
    rw [h] at ih
    rw [ih, List.infix_cons_iff, hline, or_iff_right hhead]

theorem splitHeaders_headless (start : Bool) (cs : List Char) :
    ¬ HasHeader start (splitHeaders start cs).1 ∧
      ∀ piece ∈ (splitHeaders start cs).2, ¬ HasHeader false piece := by
  fun_induction splitHeaders start cs with
  | case1 start => simp [HasHeader]
  | case2 cs piece pieces h ih =>
    rw [h] at ih
    refine ⟨by simp [HasHeader], fun p hp => ?_⟩
    rcases List.mem_cons.mp hp with rfl | hp
    · exact ih.1
    · exact ih.2 p hp
  | case3 start c cs hno piece pieces h ih =>
    have hjoin := join_splitHeaders (c == '\n') cs
    rw [h] at ih hjoin
    refine ⟨?_, ih.2⟩
    rintro (⟨rfl, hfirst⟩ | hline)
    · -- the first piece starts as the text does
      obtain ⟨rfl, rest, hrest⟩ := List.cons_prefix_cons.mp hfirst
      apply hno (rest ++ pieces.flatMap (['#', '#', ' '] ++ ·)) rfl rfl
      rw [← hjoin, ← hrest]
      rfl
    · apply ih.1
      rcases List.infix_cons_iff.mp hline with hfirst | hline
      · obtain ⟨rfl, hrest⟩ := List.cons_prefix_cons.mp hfirst
        exact .inl ⟨rfl, hrest⟩
      · exact .inr hline

/-- A text without the white space at its ends. -/
structure Strips (cs out : List Char) : Prop where
  ends : ∃ before after, cs = before ++ out ++ after ∧ ∀ c ∈ before ++ after, Text.isSpace c = true
  first : ∀ c, out.head? = some c → Text.isSpace c = false
  last : ∀ c, out.getLast? = some c → Text.isSpace c = false

theorem strips_stripped (cs : List Char) : Strips cs (stripped cs) := by
  have hout : stripped cs = (cs.dropWhile Text.isSpace).rdropWhile Text.isSpace := rfl
  refine ⟨⟨cs.takeWhile Text.isSpace, (cs.dropWhile Text.isSpace).rtakeWhile Text.isSpace,
    ?_, fun c hc => ?_⟩, fun c hc => ?_, fun c hc => ?_⟩
  · rw [hout, List.append_assoc, List.rdropWhile_append_rtakeWhile, List.takeWhile_append_dropWhile]
  · rcases List.mem_append.mp hc with hc | hc
    · exact List.mem_takeWhile_imp hc
    · exact List.mem_rtakeWhile_imp hc
  · -- the first character that is left was the first after the white space
    have hprefix : stripped cs <+: cs.dropWhile Text.isSpace := hout ▸ List.rdropWhile_prefix _ _
    have hfirst := List.head?_dropWhile_not Text.isSpace cs
    rw [List.singleton_prefix_iff_head?_eq_some.mp
      ((List.singleton_prefix_iff_head?_eq_some.mpr hc).trans hprefix)] at hfirst
    exact hfirst
  · have hne : stripped cs ≠ [] := by
      rintro h
      rw [h] at hc
      cases hc
    rw [List.getLast?_eq_some_getLast hne, Option.some.injEq] at hc
    rw [← hc]
    exact Bool.not_eq_true _ ▸ List.rdropWhile_last_not Text.isSpace _ hne

end PolicyText

/-! ## Vectors -/

theorem getItem_ok {V : Type} {d : Dict String V} {key : String} (h : key ∈ d.keys) :
    ∃ v, d.get? key = some v ∧ getItem d key = .ok v := by
  obtain ⟨v, hv⟩ := Dict.get?_of_mem_keys h
  refine ⟨v, hv, ?_⟩
  unfold getItem
  rw [hv]

theorem mapM_ok {A B ε : Type} {f : A → Except ε B} {l : List A} (h : ∀ a ∈ l, ∃ b, f a = .ok b) :
    ∃ bs, l.mapM f = .ok bs ∧ (l = [] → bs = []) := by
  induction l with
  | nil => exact ⟨[], rfl, fun _ => rfl⟩
  | cons a l ih =>
    obtain ⟨b, hb⟩ := h a (by simp)
    obtain ⟨bs, hbs, -⟩ := ih fun a ha => h a (by simp [ha])
    refine ⟨b :: bs, ?_, fun h => by cases h⟩
    rw [List.mapM_cons, hb, hbs]
    rfl

section Vectors
variable (rt : Runtime)

/-- The squares of a vector do not add up to a negative number, and no value is divided by zero. -/
theorem normalize_ok (vector : Weights) : ∃ v, normalize rt vector = .ok v ∧ ∀ k, k ∈ v.keys ↔
    k ∈ vector.keys := by
  have hsum : (rt.sum (vector.values.map fun value => value.mul value)).NotNeg := by
    apply rt.sum_notNeg
    intro x hx
    obtain ⟨value, -, rfl⟩ := List.mem_map.mp hx
    exact PyFloat.notNeg_mul_self value
  unfold normalize Runtime.mathSqrt
  rw [if_neg (by rw [hsum]; exact Bool.false_ne_true)]
  show ∃ v, (if (rt.sqrt _).isZero then _ else _) = _ ∧ _
  generalize rt.sqrt _ = norm
  by_cases hzero : norm.isZero = true
  · rw [if_pos hzero]
    exact ⟨vector, rfl, fun k => Iff.rfl⟩
  · rw [if_neg hzero]
    have hdiv : ∀ item ∈ vector.items, ∃ v, trueDiv item.2 norm = .ok v := by
      intro item _
      unfold trueDiv PyFloat.div
      rw [if_neg hzero]
      exact ⟨_, rfl⟩
    obtain ⟨v, hv, hkeys, -⟩ := Dict.comprehension_ok Prod.fst (fun item => trueDiv item.2 norm) hdiv
    exact ⟨v, hv, hkeys⟩

theorem weighted_ok {idf : Weights} {counts : List (String × ℕ)} (h : ∀ item ∈ counts, item.1 ∈ idf.keys) :
    ∃ v, weighted idf counts = .ok v ∧ ∀ k, k ∈ v.keys ↔ k ∈ counts.map Prod.fst := by
  have hproduct : ∀ item ∈ counts, ∃ x, (do
      let weight ← getItem idf item.1
      return (PyFloat.ofNat item.2).mul weight : Except Exn PyFloat) = .ok x := by
    intro item hitem
    obtain ⟨weight, -, hweight⟩ := getItem_ok (h item hitem)
    exact ⟨(PyFloat.ofNat item.2).mul weight, bind_of_ok hweight _⟩
  obtain ⟨v, hv, hkeys, -⟩ := Dict.comprehension_ok Prod.fst _ hproduct
  exact ⟨v, hv, hkeys⟩

/-- A term of both vectors is in both; without one the similarity is zero. -/
theorem cosineSimilarity_ok (a b : Weights) : ∃ x, cosineSimilarity rt a b = .ok x ∧
    ((∀ t ∈ a.keys, t ∉ b.keys) → x = .zero) := by
  have hterms : ∀ t ∈ rt.inter a.keys b.keys, ∃ x, (do
      let x ← getItem a t
      let y ← getItem b t
      return x.mul y : Except Exn PyFloat) = .ok x := by
    intro t ht
    obtain ⟨hta, htb⟩ := rt.mem_inter.mp ht
    obtain ⟨x, -, hx⟩ := getItem_ok hta
    obtain ⟨y, -, hy⟩ := getItem_ok htb
    exact ⟨x.mul y, (bind_of_ok hx _).trans (bind_of_ok hy _)⟩
  obtain ⟨products, hproducts, hnil⟩ := mapM_ok hterms
  refine ⟨rt.sum products, ?_, fun hnone => ?_⟩
  · unfold cosineSimilarity
    exact bind_of_ok hproducts _
  · have hinter : rt.inter a.keys b.keys = [] := by
      apply List.eq_nil_iff_forall_not_mem.mpr
      intro t ht
      obtain ⟨hta, htb⟩ := rt.mem_inter.mp ht
      exact hnone t hta htb
    rw [hnil hinter, rt.sum_nil]

/-- The vector of some tokens; a token without a weight is left out. -/
def tokensVector (idf : Weights) (tokens : List String) : Except Exn Weights := do
  let vector ← weighted idf ((Dict.counter tokens).items.filter fun item => (idf.get? item.1).isSome)
  normalize rt vector

theorem tokensVector_ok (idf : Weights) (tokens : List String) :
    ∃ v, tokensVector rt idf tokens = .ok v ∧ ∀ k, k ∈ v.keys → k ∈ tokens := by
  have hweights : ∀ item ∈ (Dict.counter tokens).items.filter fun item => (idf.get? item.1).isSome,
      item.1 ∈ idf.keys := by
    intro item hitem
    rw [Dict.mem_keys]
    exact Option.isSome_iff_ne_none.mp (List.mem_filter.mp hitem).2
  obtain ⟨vector, hvector, hkeys⟩ := weighted_ok hweights
  obtain ⟨v, hv, hkeys'⟩ := normalize_ok rt vector
  refine ⟨v, ?_, fun k hk => ?_⟩
  · unfold tokensVector
    exact (bind_of_ok hvector _).trans hv
  · obtain ⟨item, hitem, rfl⟩ := List.mem_map.mp ((hkeys k).mp ((hkeys' k).mp hk))
    exact (Dict.mem_keys_counter tokens item.1).mp (List.mem_map_of_mem (List.mem_of_mem_filter hitem))

theorem tokensVector_eq {idf : Weights} {tokens : List String} (h : ∀ t ∈ tokens, t ∈ idf.keys) :
    tokensVector rt idf tokens = weighted idf (Dict.counter tokens).items >>= normalize rt := by
  have hall : (Dict.counter tokens).items.filter (fun item => (idf.get? item.1).isSome) =
      (Dict.counter tokens).items := by
    apply List.filter_eq_self.mpr
    intro item hitem
    rw [Option.isSome_iff_ne_none, ← Dict.mem_keys]
    exact h _ ((Dict.mem_keys_counter tokens item.1).mp (List.mem_map_of_mem hitem))
  unfold tokensVector
  rw [hall]

/-! ## The index -/

theorem docFreq_eq (docs : Dict String (List String)) :
    docFreq rt docs = Dict.counter (docs.values.flatMap rt.set) := by
  have hfold (l : List (List String)) (counts : Dict String ℕ) :
      l.foldl (fun docFreq tokens => docFreq.update (rt.set tokens)) counts =
        counts.update (l.flatMap rt.set) := by
    induction l generalizing counts with
    | nil => rfl
    | cons tokens l ih => rw [List.foldl_cons, ih, List.flatMap_cons, Dict.update_append]
  exact hfold docs.values .empty

theorem mem_docFreq {docs : Dict String (List String)} {t : String} :
    t ∈ (docFreq rt docs).keys ↔ ∃ tokens ∈ docs.values, t ∈ tokens := by
  rw [docFreq_eq, Dict.mem_keys_counter, List.mem_flatMap]
  exact exists_congr fun tokens => and_congr_right fun _ => rt.mem_set

theorem docFreq_le {docs : Dict String (List String)} {t : String} {df : ℕ}
    (h : (docFreq rt docs).get? t = some df) : df ≤ docs.items.length := by
  have hcount (l : List (List String)) : (l.flatMap rt.set).count t ≤ l.length := by
    induction l with
    | nil => simp
    | cons tokens l ih =>
      have hone : (rt.set tokens).count t ≤ 1 := List.nodup_iff_count_le_one.mp (rt.set_nodup tokens) t
      rw [List.flatMap_cons, List.count_append, List.length_cons]
      omega
  have hdf := Dict.getD_counter (docs.values.flatMap rt.set) t
  rw [← docFreq_eq, h, Option.getD_some] at hdf
  have hle := hcount docs.values
  rw [← hdf, Dict.values, List.length_map] at hle
  exact hle

/-- What the index holds of some sections: each word has a weight, and each slug the vector of its
document. -/
structure Indexes (sections : List PolicySection) (idf : Weights)
    (vectors : Dict String Weights) : Prop where
  weights : ∀ tokens ∈ (documents sections).values, ∀ t ∈ tokens, t ∈ idf.keys
  slugs : ∀ slug, slug ∈ vectors.keys ↔ slug ∈ (documents sections).keys
  vectors : ∀ slug v, vectors.get? slug = some v → ∃ tokens, (documents sections).get? slug = some tokens ∧
    tokensVector rt idf tokens = .ok v

/-- **The index is built**: the argument of the logarithm is at least one, and every word has a weight. -/
theorem buildTfidf_ok (sections : List PolicySection) :
    ∃ idf vectors, buildTfidf rt sections = .ok (idf, vectors) ∧ Indexes rt sections idf vectors := by
  have hlog : ∀ item ∈ (docFreq rt (documents sections)).items, ∃ x, (do
      let log ← rt.mathLog (.ofFrac (1 + (documents sections).items.length) (1 + item.2))
      return log.add .one : Except Exn PyFloat) = .ok x := by
    intro item hitem
    have hle := docFreq_le rt ((Dict.mem_iff _ item.1 item.2).mp hitem)
    have hpos : (PyFloat.ofFrac (1 + (documents sections).items.length) (1 + item.2)).le .zero = false :=
      PyFloat.ofFrac_pos (by omega) (by omega)
    unfold Runtime.mathLog
    rw [if_neg (by rw [hpos]; exact Bool.false_ne_true)]
    exact ⟨_, rfl⟩
  obtain ⟨idf, hidf, hwords, -⟩ := Dict.comprehension_ok Prod.fst _ hlog
  have hweights : ∀ tokens ∈ (documents sections).values, ∀ t ∈ tokens, t ∈ idf.keys :=
    fun tokens hmem t ht =>
    (hwords t).mpr ((mem_docFreq rt).mpr ⟨tokens, hmem, ht⟩)
  have heq : ∀ item ∈ (documents sections).items,
      (weighted idf (Dict.counter item.2).items >>= normalize rt) = tokensVector rt idf item.2 :=
        fun item hitem =>
    (tokensVector_eq rt (hweights item.2 (List.mem_map_of_mem hitem))).symm
  have hvector : ∀ item ∈ (documents sections).items,
      ∃ v, (weighted idf (Dict.counter item.2).items >>= normalize rt) = .ok v := by
    intro item hitem
    obtain ⟨v, hv, -⟩ := tokensVector_ok rt idf item.2
    exact ⟨v, (heq item hitem).trans hv⟩
  obtain ⟨vectors, hvectors, hslugs, hget⟩ := Dict.comprehension_ok Prod.fst _ hvector
  refine ⟨idf, vectors, ?_, hweights, hslugs, fun slug v hv => ?_⟩
  · unfold buildTfidf
    exact (bind_of_ok hidf _).trans (bind_of_ok hvectors _)
  · obtain ⟨item, hitem, rfl, hvector⟩ := hget slug v hv
    exact ⟨item.2, (Dict.mem_iff _ item.1 item.2).mp hitem, (heq item hitem).symm.trans hvector⟩

end Vectors

/-! ## The retrieval -/

section Retrieval
variable {rt : Runtime} {index : PolicyIndex} {query : Weights} {invoice : Invoice}
    {sections : List PolicySection}

/-- The vector of the slug reaches the threshold. -/
def Hit (rt : Runtime) (index : PolicyIndex) (query : Weights) (slug : String) : Prop :=
  ∃ v x, index.sectionVectors.get? slug = some v ∧ cosineSimilarity rt query v = .ok x ∧
    similarityThreshold.le x = true

theorem mem_addSection {included : Dict String PolicySection} {s : PolicySection} {slug : String} :
    slug ∈ (addSection included s).keys ↔ slug = s.sectionId ∨ slug ∈ included.keys :=
  Dict.mem_keys_insert included s.sectionId slug s

theorem mem_includeFloor {slug : String} : slug ∈ (includeFloor invoice sections).keys ↔
    (∃ s ∈ sections, isMandatory s = true ∧ s.sectionId = slug) ∨
      ∃ s, sections.find? (namesCategory invoice.category) = some s ∧ s.sectionId = slug := by
  have hfold (l : List PolicySection) (included : Dict String PolicySection) :
      slug ∈ (l.foldl addSection included).keys ↔ slug ∈ included.keys ∨ ∃ s ∈ l, s.sectionId = slug := by
    induction l generalizing included with
    | nil => simp
    | cons s l ih =>
      rw [List.foldl_cons, ih, mem_addSection, or_comm (a := slug = s.sectionId), or_assoc,
        List.exists_mem_cons_iff, eq_comm (a := slug)]
  have hmandatory : slug ∈ ((sections.filter isMandatory).foldl addSection .empty).keys ↔
      ∃ s ∈ sections, isMandatory s = true ∧ s.sectionId = slug := by
    rw [hfold]
    simp [and_assoc]
  unfold includeFloor
  cases hfind : sections.find? (namesCategory invoice.category) with
  | none => simp [hmandatory]
  | some s =>
    show slug ∈ (addSection _ s).keys ↔ _
    rw [mem_addSection, hmandatory, or_comm]
    refine or_congr_right ⟨fun hslug => ⟨s, rfl, hslug.symm⟩, ?_⟩
    rintro ⟨s', hs', rfl⟩
    cases hs'
    rfl

/-- One section: its slug is added where the vector of the slug reaches the threshold. -/
theorem includeSimilar_ok {s : PolicySection} (h : s.sectionId ∈ index.sectionVectors.keys)
    (included : Dict String PolicySection) :
    ∃ included', includeSimilar rt index query included s = .ok included' ∧
      ∀ slug, slug ∈ included'.keys ↔ slug ∈ included.keys ∨ slug = s.sectionId ∧
        Hit rt index query slug := by
  unfold includeSimilar
  by_cases hin : (included.get? s.sectionId).isSome = true
  · rw [if_pos hin]
    refine ⟨included, rfl, fun slug => ⟨.inl, ?_⟩⟩
    rintro (hslug | ⟨rfl, -⟩)
    · exact hslug
    · rw [Dict.mem_keys]
      exact Option.isSome_iff_ne_none.mp hin
  · obtain ⟨v, hv, hitem⟩ := getItem_ok h
    obtain ⟨x, hx, -⟩ := cosineSimilarity_ok rt query v
    have hhit : Hit rt index query s.sectionId ↔ similarityThreshold.le x = true := by
      constructor
      · rintro ⟨v', x', hv', hx', hle⟩
        cases hv.symm.trans hv'
        cases hx.symm.trans hx'
        exact hle
      · exact fun hle => ⟨v, x, hv, hx, hle⟩
    rw [if_neg hin]
    refine ⟨_, (bind_of_ok hitem _).trans (bind_of_ok hx _), fun slug => ?_⟩
    by_cases hle : similarityThreshold.le x = true
    · rw [if_pos hle, mem_addSection, or_comm]
      refine or_congr_right ⟨fun hslug => ⟨hslug, ?_⟩, And.left⟩
      rw [hslug]
      exact hhit.mpr hle
    · rw [if_neg hle]
      refine ⟨.inl, ?_⟩
      rintro (hslug | ⟨rfl, hslug⟩)
      · exact hslug
      · exact absurd (hhit.mp hslug) hle

theorem includeSimilar_run (h : ∀ s ∈ sections, s.sectionId ∈ index.sectionVectors.keys)
    (included : Dict String PolicySection) :
    ∃ included', sections.foldlM (includeSimilar rt index query) included = .ok included' ∧
      ∀ slug, slug ∈ included'.keys ↔
        slug ∈ included.keys ∨ slug ∈ sections.map (·.sectionId) ∧ Hit rt index query slug := by
  induction sections generalizing included with
  | nil => exact ⟨included, rfl, fun slug => by simp⟩
  | cons s sections ih =>
    obtain ⟨included', hstep, hkeys⟩ := @includeSimilar_ok rt index query s (h s (by simp)) included
    obtain ⟨included'', hrun, hkeys'⟩ := ih (fun s hs => h s (by simp [hs])) included'
    refine ⟨included'', ?_, fun slug => ?_⟩
    · rw [List.foldlM_cons, hstep]
      exact hrun
    · rw [hkeys', hkeys, List.map_cons, List.mem_cons, or_assoc, ← or_and_right]

/-- **What is retrieved**: the sections with a slug of the floor, or with one whose vector reaches the
threshold. -/
theorem retrieve_ok (h : Indexes rt index.sections index.idf index.sectionVectors) (invoice : Invoice) :
    ∃ query, ∃ included : Dict String PolicySection, buildQueryVector rt invoice index.idf = .ok query ∧
      (∀ slug, slug ∈ included.keys ↔ slug ∈ (includeFloor invoice index.sections).keys ∨
        slug ∈ index.sections.map (·.sectionId) ∧ Hit rt index query slug) ∧
      retrieveRelevantPolicyText rt invoice index =
        let ordered := index.sections.filter fun s => s.sectionId ∈ included.keys
        .ok ⟨"\n\n".intercalate (index.preamble :: ordered.map (·.text)), ordered.map (·.sectionId)⟩ := by
  obtain ⟨query, hquery, -⟩ := tokensVector_ok rt index.idf (queryTokens invoice)
  have hslugs : ∀ s ∈ index.sections, s.sectionId ∈ index.sectionVectors.keys := by
    intro s hs
    rw [h.slugs, documents, Dict.mem_keys_ofList, List.map_map]
    exact List.mem_map_of_mem hs
  obtain ⟨included, hrun, hkeys⟩ := @includeSimilar_run rt index query index.sections hslugs
    (includeFloor invoice index.sections)
  refine ⟨query, included, hquery, hkeys, ?_⟩
  have hfilter : (index.sections.filter fun s => (included.get? s.sectionId).isSome) =
      index.sections.filter fun s => s.sectionId ∈ included.keys := by
    apply List.filter_congr
    intro s _
    rw [Bool.eq_iff_iff, decide_eq_true_iff, Dict.mem_keys, Option.isSome_iff_ne_none]
  unfold retrieveRelevantPolicyText
  rw [← hfilter]
  exact (bind_of_ok hquery _).trans (bind_of_ok hrun _)

/-! ## The floor -/

/-- The text before the first header, and what follows each. -/
def pieces (policy : String) : List Char × List (List Char) := splitHeaders true policy.toList

/-- The first line of a piece is the title of its section, and the rest is the body. -/
def Parses (piece : List Char) (s : PolicySection) : Prop :=
  ∃ line rest, '\n' ∉ line ∧ (piece = line ++ '\n' :: rest ∨ piece = line ∧ rest = []) ∧
    Strips line s.title.toList ∧ Strips rest s.body.toList ∧ s.sectionId = slugify line

/-- The index holds the pieces between the headers, as the sections that they parse to. -/
structure Parsed (policy : String) (index : PolicyIndex) : Prop where
  join : (pieces policy).1 ++ (pieces policy).2.flatMap (['#', '#', ' '] ++ ·) = policy.toList
  headless : ¬ HasHeader true (pieces policy).1 ∧ ∀ piece ∈ (pieces policy).2, ¬ HasHeader false piece
  preamble : Strips (pieces policy).1 index.preamble.toList
  sections : List.Forall₂ Parses (pieces policy).2 index.sections

theorem parses_ofPiece (piece : List Char) : Parses piece (.ofPiece piece) := by
  refine ⟨(partition piece).1, (partition piece).2, fun hmem => ?_, ?_, ?_, ?_, ?_⟩
  · have hline := List.mem_takeWhile_imp hmem
    simp at hline
  · have hjoin : (partition piece).1 ++ piece.dropWhile (· ≠ '\n') = piece :=
      List.takeWhile_append_dropWhile
    have hfirst := List.head?_dropWhile_not (fun c : Char => decide (c ≠ '\n')) piece
    unfold partition at hjoin ⊢
    cases hrest : piece.dropWhile fun c => decide (c ≠ '\n') with
    | nil =>
      rw [hrest, List.append_nil] at hjoin
      exact .inr ⟨hjoin.symm, rfl⟩
    | cons c rest =>
      rw [hrest] at hjoin hfirst
      have hc : c = '\n' := not_not.mp (of_decide_eq_false hfirst)
      rw [hc] at hjoin
      exact .inl hjoin.symm
  · simpa [PolicySection.ofPiece] using strips_stripped (partition piece).1
  · simpa [PolicySection.ofPiece] using strips_stripped (partition piece).2
  · simp only [PolicySection.ofPiece]

theorem parsePolicyIndex_eq {policy : String} (h : parsePolicyIndex rt policy = .ok index) :
    index.preamble = String.ofList (stripped (pieces policy).1) ∧
      index.sections = (pieces policy).2.map .ofPiece := by
  unfold parsePolicyIndex at h
  obtain ⟨built, -, hbuilt⟩ := bind_ok h
  obtain rfl := Except.ok.inj hbuilt
  exact ⟨rfl, rfl⟩

theorem parsePolicyIndex_ok (rt : Runtime) (policy : String) :
    ∃ index, parsePolicyIndex rt policy = .ok index ∧
    Parsed policy index ∧ Indexes rt index.sections index.idf index.sectionVectors := by
  obtain ⟨idf, vectors, hbuild, hindexes⟩ := buildTfidf_ok rt ((pieces policy).2.map .ofPiece)
  refine ⟨⟨String.ofList (stripped (pieces policy).1), (pieces policy).2.map .ofPiece, idf, vectors⟩,
    ?_, ?_, hindexes⟩
  · unfold parsePolicyIndex
    exact bind_of_ok hbuild _
  · constructor
    · exact join_splitHeaders true policy.toList
    · exact splitHeaders_headless true policy.toList
    · simpa using strips_stripped (pieces policy).1
    · exact List.forall₂_map_right_iff.mpr (List.forall₂_same.mpr fun piece _ => parses_ofPiece piece)

/-- The title contains the words, in small letters. -/
def Titled (words : String) (s : PolicySection) : Prop := words.toList <:+: lower s.title.toList

/-- The text and the slugs of a retrieval are those of the sections that are kept, among them the floor. -/
structure Keeps (invoice : Invoice) (index : PolicyIndex) (keep : PolicySection → Bool)
    (result : RetrievedPolicy) : Prop where
  text : result.text = "\n\n".intercalate
    (index.preamble :: (index.sections.filter keep).map fun s => "## " ++ s.title ++ "\n" ++ s.body)
  sectionIds : result.sectionIds = (index.sections.filter keep).map (·.sectionId)
  globalRules : ∀ s ∈ index.sections, Titled "global rules" s → keep s = true
  autonomyThresholds : ∀ s ∈ index.sections, Titled "autonomy thresholds" s → keep s = true
  category : ∀ word, (invoice.category, word) ∈
      [(Category.meals, "meals"), (.travel, "travel"), (.saas, "saas"), (.hardware, "hardware")] →
    ∀ before s after, index.sections = before ++ s :: after → Titled word s →
      (∀ s' ∈ before, ¬ Titled word s') → keep s = true

theorem mentions_iff {words : String} {s : PolicySection} :
    mentions words s.title = true ↔ Titled words s :=
  decide_eq_true_iff

theorem isMandatory_iff {s : PolicySection} :
    isMandatory s = true ↔ Titled "global rules" s ∨ Titled "autonomy thresholds" s := by
  rw [isMandatory, Bool.or_eq_true, mentions_iff, mentions_iff]

theorem find_namesCategory {category : Category} {word : String}
    (hword : categoryKeyword category = some word)
    {before after : List PolicySection} {s : PolicySection} (hs : Titled word s)
    (hbefore : ∀ s' ∈ before, ¬ Titled word s') :
    (before ++ s :: after).find? (namesCategory category) = some s := by
  have hnames (s' : PolicySection) : namesCategory category s' = true ↔ Titled word s' := by
    simp only [namesCategory, hword, mentions_iff]
  rw [List.find?_append, List.find?_eq_none.mpr fun s' hs' h => hbefore s' hs' ((hnames s').mp h),
    Option.none_or, List.find?_cons_of_pos ((hnames s).mpr hs)]

theorem retrieve_keeps (h : Indexes rt index.sections index.idf index.sectionVectors) (invoice : Invoice) :
    ∃ keep result, retrieveRelevantPolicyText rt invoice index = .ok result ∧
      Keeps invoice index keep result := by
  obtain ⟨query, included, -, hkeys, hresult⟩ := retrieve_ok h invoice
  have hmandatory (s : PolicySection) (hs : s ∈ index.sections) (hs' : isMandatory s = true) :
      s.sectionId ∈ included.keys := (hkeys _).mpr (.inl (mem_includeFloor.mpr (.inl ⟨s, hs, hs', rfl⟩)))
  refine ⟨fun s => s.sectionId ∈ included.keys, _, hresult, rfl, rfl, ?_, ?_, ?_⟩
  · exact fun s hs hs' => decide_eq_true (hmandatory s hs (isMandatory_iff.mpr (.inl hs')))
  · exact fun s hs hs' => decide_eq_true (hmandatory s hs (isMandatory_iff.mpr (.inr hs')))
  · intro word hword before s after hsections hs hbefore
    have hkeyword : categoryKeyword invoice.category = some word := by
      simp only [List.mem_cons, Prod.mk.injEq, List.not_mem_nil, or_false] at hword
      rcases hword with ⟨hc, rfl⟩ | ⟨hc, rfl⟩ | ⟨hc, rfl⟩ | ⟨hc, rfl⟩ <;> rw [hc] <;> rfl
    have hfind : index.sections.find? (namesCategory invoice.category) = some s := by
      rw [hsections]
      exact find_namesCategory hkeyword hs hbefore
    exact decide_eq_true ((hkeys _).mpr (.inl (mem_includeFloor.mpr (.inr ⟨s, hfind, rfl⟩))))

theorem Keeps.starts {keep : PolicySection → Bool} {result : RetrievedPolicy}
    (h : Keeps invoice index keep result) : index.preamble.toList <+: result.text.toList := by
  rw [h.text]
  cases (index.sections.filter keep).map fun s => "## " ++ s.title ++ "\n" ++ s.body with
  | nil => rw [String.intercalate_singleton]
  | cons text texts =>
    rw [String.intercalate_cons_cons, String.toList_append, String.toList_append, List.append_assoc]
    exact List.prefix_append _ _

/-- **The floor of the retrieval.** Every policy text is parsed, and for every invoice something is
retrieved from it, whatever the similarities are: the preamble and the sections that are kept, in the
order of the document, with every mandatory section and the first that names the invoice's category among
them. A text without a header is retrieved whole. -/
theorem retrieval_floor (rt : Runtime) (policy : String) (invoice : Invoice) :
    ∃ index keep result, parsePolicyIndex rt policy = .ok index ∧
      retrieveRelevantPolicyText rt invoice index = .ok result ∧
      Parsed policy index ∧ Keeps invoice index keep result ∧ index.preamble.toList <+: result.text.toList ∧
      (¬ HasHeader true policy.toList → result.sectionIds = [] ∧
        Strips policy.toList result.text.toList) := by
  obtain ⟨index, hparse, hparsed, hindexes⟩ := parsePolicyIndex_ok rt policy
  obtain ⟨keep, result, hretrieve, hkeeps⟩ := retrieve_keeps hindexes invoice
  refine ⟨index, keep, result, hparse, hretrieve, hparsed, hkeeps, hkeeps.starts, fun hno => ?_⟩
  have hnone : (pieces policy).2 = [] := by
    by_contra hne
    exact hno ((splitHeaders_iff true policy.toList).mp hne)
  have hwhole : (pieces policy).1 = policy.toList := by
    rw [← hparsed.join, hnone, List.flatMap_nil, List.append_nil]
  have hsections : index.sections = [] := by
    have hforall := hparsed.sections
    rw [hnone] at hforall
    exact List.forall₂_nil_left_iff.mp hforall
  rw [hkeeps.text, hkeeps.sectionIds, hsections, List.filter_nil, List.map_nil, List.map_nil,
    String.intercalate_singleton, ← hwhole]
  exact ⟨rfl, hparsed.preamble⟩

/-- A policy with a mandatory section and one for hardware. -/
def hardwarePolicy : String := "Ask first.\n## 1. Global Rules\nNo cash. \n\n## 2. Hardware (IT)\nAsk IT."

theorem hardware_retrieved : ∃ index keep result, parsePolicyIndex plainRuntime hardwarePolicy = .ok index ∧
    retrieveRelevantPolicyText plainRuntime laptop index = .ok result ∧ Parsed hardwarePolicy index ∧
    Keeps laptop index keep result ∧
    result.text = "Ask first.\n\n## 1. Global Rules\nNo cash.\n\n## 2. Hardware (IT)\nAsk IT." ∧
    result.sectionIds = ["global_rules", "hardware_it"] := by
  obtain ⟨index, keep, result, hparse, hretrieve, hparsed, hkeeps, -, -⟩ :=
    retrieval_floor plainRuntime hardwarePolicy laptop
  obtain ⟨hpreamble, hsections⟩ := parsePolicyIndex_eq hparse
  have hpieces : (pieces hardwarePolicy).2.map PolicySection.ofPiece =
      [⟨"global_rules", "1. Global Rules", "No cash."⟩,
        ⟨"hardware_it", "2. Hardware (IT)", "Ask IT."⟩] := by decide
  rw [hpieces] at hsections
  have hall : index.sections.filter keep = index.sections := by
    rw [hsections, List.filter_eq_self]
    intro s hs
    rcases List.mem_pair.mp hs with rfl | rfl
    · exact hkeeps.globalRules _ (by rw [hsections]; exact List.mem_cons_self) (by unfold Titled; decide)
    · exact hkeeps.category "hardware" (by decide) [_] _ [] hsections (by unfold Titled; decide)
        (by unfold Titled; decide)
  refine ⟨index, keep, result, hparse, hretrieve, hparsed, hkeeps, ?_, ?_⟩
  · rw [hkeeps.text, hall, hsections, hpreamble]
    decide
  · rw [hkeeps.sectionIds, hall, hsections]
    rfl

end Retrieval

end ApprovalFlow
