import ApprovalFlow.Async.Pool

/-!
# Crowds

Any number of threads that do the same one after another: how a run is built that holds for every number
of them.

* `Moves`: a thread has an action that leaves the state as it is.
* `Reach.crowd`: a whole crowd moves; `Reach.crowd_invoke`: it arrives.
* `Reach.step_last`: the thread that came last performs its operation.
-/

namespace Async

variable {σ : Sig} {ε α S C Call : Type} {sys : System σ ε α S C Call}
    {ok : StepCond σ ε α S C Call} {s : S}
  {cfg₀ : Config σ ε α S Call} {t t' : Thread σ ε α Call} {log : List (Event σ ε α Call)}
    {rest : List (Thread σ ε α Call)}

/-- Wherever a thread `t` stands, an action makes it `t'` and leaves the state. -/
def Moves (sys : System σ ε α S C Call) (ok : StepCond σ ε α S C Call) (s : S)
    (t t' : Thread σ ε α Call) : Prop :=
  ∀ i log threads, threads[i]? = some t → ∃ a log', meets ok ⟨⟨s, log⟩, threads⟩ a ∧
    sys.act ⟨⟨s, log⟩, threads⟩ a = some ⟨⟨s, log'⟩, threads.set i t'⟩

theorem moves_step {call : Call} {o : σ.Op} {k : Except ε (σ.Res o) → Prog σ ε α} {c : C}
    {r : Except ε (σ.Res o)} (hexec : sys.exec c o s = (r, s)) (hok : ∀ w i, ok w i call o c) :
    Moves sys ok s ⟨call, .running (.await o k)⟩ ⟨call, .running (k r)⟩ := by
  intro i log threads hi
  refine ⟨.step i c, .perform i call o r :: log, fun call' o' k' hi' => ?_, ?_⟩
  · cases hi.symm.trans hi'
    exact hok _ _
  · simp only [System.act, hi, hexec]

theorem moves_respond {call : Call} {p : Prog σ ε α} {r : Except ε α} (hp : p.result? = some r) :
    Moves sys ok s ⟨call, .running p⟩ ⟨call, .done r⟩ := by
  intro i log threads hi
  refine ⟨.respond i, .respond i call r :: log, trivial, ?_⟩
  simp only [System.act, hi, hp]
  rfl

/-- Those behind the ones that have moved, by induction on their number. -/
theorem System.Reach.crowd_behind (hmoves : Moves sys ok s t t') {m n : ℕ}
    (h : sys.Reach (meets ok) cfg₀ ⟨⟨s, log⟩, List.replicate m t' ++ (List.replicate n t ++ rest)⟩) :
    ∃ log', sys.Reach (meets ok) cfg₀ ⟨⟨s, log'⟩, List.replicate (m + n) t' ++ rest⟩ := by
  induction n generalizing m log with
  | zero => exact ⟨log, h⟩
  | succ n ih =>
    have hm : (List.replicate m t' ++ (List.replicate (n + 1) t ++ rest))[m]? = some t := by
      rw [List.getElem?_append_right (by simp), List.length_replicate, Nat.sub_self]
      rfl
    have hset : (List.replicate m t' ++ (List.replicate (n + 1) t ++ rest)).set m t' =
        List.replicate (m + 1) t' ++ (List.replicate n t ++ rest) := by
      rw [List.set_append_right _ _ (by simp), List.length_replicate, Nat.sub_self,
        List.replicate_succ (n := n), List.replicate_succ' (n := m), List.append_assoc]
      rfl
    obtain ⟨a, log', hok, hact⟩ := hmoves m log _ hm
    obtain ⟨log'', h'⟩ := ih (hset ▸ h.tail hok hact)
    exact ⟨log'', by rwa [Nat.add_right_comm] at h'⟩

theorem System.Reach.crowd (hmoves : Moves sys ok s t t') {n : ℕ}
    (h : sys.Reach (meets ok) cfg₀ ⟨⟨s, log⟩, List.replicate n t ++ rest⟩) :
    ∃ log', sys.Reach (meets ok) cfg₀ ⟨⟨s, log'⟩, List.replicate n t' ++ rest⟩ := by
  obtain ⟨log', h'⟩ := crowd_behind (m := 0) hmoves h
  exact ⟨log', by rwa [Nat.zero_add] at h'⟩

theorem System.Reach.crowd_invoke {call : Call} (hinvoke : sys.invoke call s = some s) (n : ℕ) :
    ∃ log, sys.Reach (meets ok) (System.start s) ⟨⟨s, log⟩,
      List.replicate n ⟨call, .running (sys.body call)⟩⟩ := by
  induction n with
  | zero => exact ⟨[], .refl⟩
  | succ n ih =>
    obtain ⟨log, h⟩ := ih
    refine ⟨.invoke n call :: log, h.tail (a := .invoke call) trivial ?_⟩
    simp only [System.act, hinvoke, Option.map_some, List.replicate_succ', List.length_replicate]

theorem System.Reach.step_last {threads : List (Thread σ ε α Call)} {call : Call} {o : σ.Op}
    {k : Except ε (σ.Res o) → Prog σ ε α} (c : C) {r : Except ε (σ.Res o)} {s' : S}
    (hexec : sys.exec c o s = (r, s')) (hok : ∀ w i, ok w i call o c)
    (h : sys.Reach (meets ok) cfg₀ ⟨⟨s, log⟩, threads ++ [⟨call, .running (.await o k)⟩]⟩) :
    ∃ log', sys.Reach (meets ok) cfg₀ ⟨⟨s', log'⟩, threads ++ [⟨call, .running (k r)⟩]⟩ := by
  have hlast : (threads ++ [(⟨call, .running (.await o k)⟩ : Thread σ ε α Call)])[threads.length]? =
      some ⟨call, .running (.await o k)⟩ := List.getElem?_concat_length
  refine ⟨.perform threads.length call o r :: log,
    h.tail (a := .step threads.length c) (fun call' o' k' hi => ?_) ?_⟩
  · cases hlast.symm.trans hi
    exact hok _ _
  · simp only [System.act, hlast, hexec, List.set_append_right _ _ (Nat.le_refl _), Nat.sub_self]
    rfl

end Async
