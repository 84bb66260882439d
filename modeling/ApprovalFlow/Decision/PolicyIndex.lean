import ApprovalFlow.Numeric.Float
import ApprovalFlow.Numeric.Text
import ApprovalFlow.Shared.Contracts
import ApprovalFlow.Shared.Errors
import ApprovalFlow.Store.Comprehension
import Mathlib.Data.List.Infix

/-!
# The policy index

The policy document is split into sections, each with a vector of weighted words; an invoice retrieves
the sections that it is judged by.

* `PolicyText`: the regular expressions and the string methods.
* `Runtime`: what Python leaves open about floats and sets.
* `parsePolicyIndex`: the sections and their vectors.
* `retrieveRelevantPolicyText`: the floor, the similarity layer, and the text.
-/

namespace ApprovalFlow
open Numeric

/-! ## Texts -/

namespace PolicyText
open Text

/-- `_SECTION_HEADER.split`: the text before the first header, and what follows each; `start` holds at
the start of a line. -/
def splitHeaders : Bool → List Char → List Char × List (List Char)
  | _, [] => ([], [])
  | true, '#' :: '#' :: ' ' :: cs =>
    let (piece, pieces) := splitHeaders false cs
    ([], piece :: pieces)
  | _, c :: cs =>
    let (piece, pieces) := splitHeaders (c == '\n') cs
    (c :: piece, pieces)

/-- `piece.partition("\n")`: what is before and after the first line break. -/
def partition (piece : List Char) : List Char × List Char :=
  (piece.takeWhile (· ≠ '\n'), (piece.dropWhile (· ≠ '\n')).drop 1)

/-- `text.lower()`. Beyond ASCII two letters have a small letter in ASCII; the others stand for
themselves, since no pattern here tells them apart. -/
def lower (cs : List Char) : List Char :=
  cs.flatMap fun c =>
    if c = '\u0130' then ['i', '\u0307'] else if c = '\u212a' then ['k'] else [c.toLower]

/-- `text.strip()`. -/
def stripped (cs : List Char) : List Char := strip isSpace cs

/-- `_NUMBER_PREFIX.sub("", title)`. -/
def dropNumber (title : List Char) : List Char :=
  let rest := title.dropWhile fun c => (digit c).isSome
  if rest.length < title.length ∧ rest.head? = some '.' then rest.tail.dropWhile isSpace else title

/-- `[a-z0-9]`. -/
def isWord (c : Char) : Bool := ('a' ≤ c && c ≤ 'z') || ('0' ≤ c && c ≤ '9')

/-- `re.sub(r"[^a-z0-9]+", "_", text)`; `run` holds inside a match. -/
def collapse : Bool → List Char → List Char
  | _, [] => []
  | run, c :: cs =>
    if isWord c then c :: collapse false cs
    else if run then collapse true cs else '_' :: collapse true cs

/-- `_slugify`. -/
def slugify (title : List Char) : String :=
  let text := strip (· = '_') (collapse false (lower (stripped (dropNumber title))))
  if text = [] then "section" else String.ofList text

/-- `_WORD.findall`; `word` is the match so far. -/
def findWords (word : List Char) : List Char → List String
  | [] => if word = [] then [] else [String.ofList word]
  | c :: cs =>
    if isWord c then findWords (word ++ [c]) cs
    else (if word = [] then [] else [String.ofList word]) ++ findWords [] cs

/-- `_tokenize`. -/
def tokenize (text : String) : List String := findWords [] (lower text.toList)

/-- `word in text.lower()`. -/
def mentions (word text : String) : Bool := word.toList <:+: lower text.toList

end PolicyText

open PolicyText

/-! ## Numbers and sets -/

/-- What the documentation of Python leaves open: the values of `math.log` and `math.sqrt`, how `sum`
adds up floats, and the order in which `set(tokens)` and `a.keys() & b.keys()` are iterated over. -/
structure Runtime where
  log : PyFloat → PyFloat
  sqrt : PyFloat → PyFloat
  sum : List PyFloat → PyFloat
  set : List String → List String
  inter : List String → List String → List String
  sum_nil : sum [] = .zero
  sum_notNeg : ∀ {xs}, (∀ x ∈ xs, x.NotNeg) → (sum xs).NotNeg
  set_nodup : ∀ l, (set l).Nodup
  mem_set : ∀ {l t}, t ∈ set l ↔ t ∈ l
  mem_inter : ∀ {l l' t}, t ∈ inter l l' ↔ t ∈ l ∧ t ∈ l'

theorem notNeg_sum {xs : List PyFloat} (h : ∀ x ∈ xs, x.NotNeg) :
    (xs.foldl PyFloat.add PyFloat.zero).NotNeg := by
  have hfold (acc : PyFloat) (hacc : acc.NotNeg) : (xs.foldl PyFloat.add acc).NotNeg := by
    induction xs generalizing acc with
    | nil => exact hacc
    | cons x xs ih =>
      exact ih (fun x hx => h x (by simp [hx])) (acc.add x) (PyFloat.notNeg_add hacc (h x (by simp)))
  exact hfold .zero (PyFloat.notNeg_zero false)

/-- A runtime that adds up from left to right, with the logarithm of one and the roots of squares. -/
def plainRuntime : Runtime where
  log _ := .zero
  sqrt
    | .finite neg a => .finite neg (a.num.sqrt / a.den.sqrt)
    | x => x
  sum xs := xs.foldl PyFloat.add PyFloat.zero
  set := List.dedup
  inter l l' := l.filter (· ∈ l')
  sum_nil := rfl
  sum_notNeg := notNeg_sum
  set_nodup := List.nodup_dedup
  mem_set := List.mem_dedup
  mem_inter := by simp

/-- `math.log`. -/
def Runtime.mathLog (rt : Runtime) (x : PyFloat) : Except Exn PyFloat :=
  if x.le .zero then .error (.valueError "math domain error") else .ok (rt.log x)

/-- `math.sqrt`. -/
def Runtime.mathSqrt (rt : Runtime) (x : PyFloat) : Except Exn PyFloat :=
  if x.lt .zero then .error (.valueError "math domain error") else .ok (rt.sqrt x)

/-- `x / y`. -/
def trueDiv (x y : PyFloat) : Except Exn PyFloat :=
  match x.div y with
  | some q => .ok q
  | none => .error .zeroDivisionError

/-- `d[key]`. -/
def getItem {V : Type} (d : Dict String V) (key : String) : Except Exn V :=
  match d.get? key with
  | some v => .ok v
  | none => .error (.keyError key)

/-! ## The index -/

structure PolicySection where
  sectionId : String
  title : String
  body : String
  deriving DecidableEq

structure RetrievedPolicy where
  text : String
  sectionIds : List String
  deriving DecidableEq

/-- The weights of some words. -/
abbrev Weights := Dict String PyFloat

structure PolicyIndex where
  preamble : String
  sections : List PolicySection
  idf : Weights
  sectionVectors : Dict String Weights

/-- The section of a piece. -/
def PolicySection.ofPiece (piece : List Char) : PolicySection where
  sectionId := slugify (partition piece).1
  title := String.ofList (stripped (partition piece).1)
  body := String.ofList (stripped (partition piece).2)

/-- The words of a section. -/
def PolicySection.tokens (s : PolicySection) : List String := tokenize (s.title ++ " " ++ s.body)

variable (rt : Runtime)

/-- `_normalize`. -/
def normalize (vector : Weights) : Except Exn Weights := do
  let norm ← rt.mathSqrt (rt.sum (vector.values.map fun value => value.mul value))
  if norm.isZero then .ok vector
  else Dict.comprehension Prod.fst (fun item => trueDiv item.2 norm) vector.items

/-- `{term: count * idf[term] for term, count in ..}`. -/
def weighted (idf : Weights) (counts : List (String × ℕ)) : Except Exn Weights :=
  Dict.comprehension Prod.fst (fun item => do
    let weight ← getItem idf item.1
    return (PyFloat.ofNat item.2).mul weight) counts

/-- `docs`: the words of each slug. -/
def documents (sections : List PolicySection) : Dict String (List String) :=
  Dict.ofList (sections.map fun s => (s.sectionId, s.tokens))

/-- `doc_freq`: in how many documents a word occurs. -/
def docFreq (docs : Dict String (List String)) : Dict String ℕ :=
  docs.values.foldl (fun docFreq tokens => docFreq.update (rt.set tokens)) .empty

/-- `_build_tfidf`. -/
def buildTfidf (sections : List PolicySection) : Except Exn (Weights × Dict String Weights) := do
  let docs := documents sections
  let nDocs := docs.items.length
  let idf ← Dict.comprehension Prod.fst (fun item => do
    let log ← rt.mathLog (.ofFrac (1 + nDocs) (1 + item.2))
    return log.add .one) (docFreq rt docs).items
  let sectionVectors ← Dict.comprehension Prod.fst (fun item => do
    let vector ← weighted idf (Dict.counter item.2).items
    normalize rt vector) docs.items
  return (idf, sectionVectors)

def parsePolicyIndex (policyText : String) : Except Exn PolicyIndex := do
  let (preamble, pieces) := splitHeaders true policyText.toList
  let sections := pieces.map .ofPiece
  let (idf, sectionVectors) ← buildTfidf rt sections
  return ⟨String.ofList (stripped preamble), sections, idf, sectionVectors⟩

/-! ## Retrieval -/

/-- `_cosine_similarity`. -/
def cosineSimilarity (a b : Weights) : Except Exn PyFloat := do
  let products ← (rt.inter a.keys b.keys).mapM fun term => do
    let x ← getItem a term
    let y ← getItem b term
    return x.mul y
  return rt.sum products

/-- The words of an invoice: its category, its vendor, its notes and what its lines describe. -/
def queryTokens (invoice : Invoice) : List String :=
  tokenize (" ".intercalate ([invoice.category.value, invoice.vendor, invoice.notes.getD ""] ++
    invoice.lineItems.map (·.description)))

/-- `_build_query_vector`. -/
def buildQueryVector (invoice : Invoice) (idf : Weights) : Except Exn Weights := do
  let tf := Dict.counter (queryTokens invoice)
  let vector ← weighted idf (tf.items.filter fun item => (idf.get? item.1).isSome)
  normalize rt vector

/-- `_CATEGORY_KEYWORDS.get`. -/
def categoryKeyword : Category → Option String
  | .meals => some "meals"
  | .travel => some "travel"
  | .saas => some "saas"
  | .hardware => some "hardware"
  | .other => none

/-- `_SIMILARITY_THRESHOLD`. -/
def similarityThreshold : PyFloat := .ofFrac 15 100

/-- The sections that every invoice is judged by. -/
def isMandatory (s : PolicySection) : Bool :=
  mentions "global rules" s.title || mentions "autonomy thresholds" s.title

/-- Whether the title names the category. -/
def namesCategory (category : Category) (s : PolicySection) : Bool :=
  match categoryKeyword category with
  | some keyword => mentions keyword s.title
  | none => false

/-- `included[section.section_id] = section`. -/
def addSection (included : Dict String PolicySection) (s : PolicySection) : Dict String PolicySection :=
  included.insert s.sectionId s

/-- The sections that do not depend on a similarity. -/
def includeFloor (invoice : Invoice) (sections : List PolicySection) : Dict String PolicySection :=
  let included := (sections.filter isMandatory).foldl addSection .empty
  match sections.find? (namesCategory invoice.category) with
  | some s => addSection included s
  | none => included

/-- The body of the similarity loop. -/
def includeSimilar (index : PolicyIndex) (query : Weights) (included : Dict String PolicySection)
    (s : PolicySection) : Except Exn (Dict String PolicySection) :=
  if (included.get? s.sectionId).isSome then .ok included
  else do
    let vector ← getItem index.sectionVectors s.sectionId
    let similarity ← cosineSimilarity rt query vector
    return if similarityThreshold.le similarity then addSection included s else included

/-- A section, as the text shows it. -/
def PolicySection.text (s : PolicySection) : String := "## " ++ s.title ++ "\n" ++ s.body

def retrieveRelevantPolicyText (invoice : Invoice) (index : PolicyIndex) : Except Exn RetrievedPolicy := do
  let query ← buildQueryVector rt invoice index.idf
  let included ← index.sections.foldlM (includeSimilar rt index query) (includeFloor invoice index.sections)
  let ordered := index.sections.filter fun s => (included.get? s.sectionId).isSome
  return ⟨"\n\n".intercalate (index.preamble :: ordered.map (·.text)), ordered.map (·.sectionId)⟩

end ApprovalFlow
