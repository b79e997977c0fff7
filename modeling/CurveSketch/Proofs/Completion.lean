import CurveSketch.Proofs.Diagnosis

/-!
# CurveSketch.Proofs.Completion

Errors are reported as early as possible and never too early. A token that is refused is refused
whatever follows, because the state between two tokens depends only on what has been read. As long
as no token is refused, the tokens can be completed: a function is given its parenthesis and an
operand is put in where one is expected (`Tracks.exists_operand`), then the open parentheses are
closed (`Tracks.exists_closing`). Hence the compiler refuses a list of tokens before its end
exactly if no list that begins with it is an expression (`ofTokens_viable`).
-/

namespace CurveSketch
namespace Compile

open Token

/-- Reading the tokens one after the other ends with this error, before their end is looked at. -/
def Refuses (ts : List Token) (e : SyntaxError) : Prop :=
  steps .initial ts = .error e

/-- From this state the tokens `us` can be read, and afterwards the state tracks all tokens and no
operand is expected. -/
structure Leads (ts : List Token) (s : State) (us : List Token) (next : State) : Prop where
  wellFormed : ∀ t ∈ us, t.WellFormed
  steps : Compile.steps s us = .ok next
  tracks : Tracks (ts ++ us) next
  complete : expectsOperand (ts ++ us) = false

section Completion

variable {ts us vs : List Token} {s mid next : State} {t : Token}

theorem Leads.refl (h : Tracks ts s) (complete : expectsOperand ts = false) : Leads ts s [] s :=
  ⟨by simp, rfl, by rwa [List.append_nil], by rwa [List.append_nil]⟩

theorem Leads.cons (ht : t.WellFormed) (hstep : step s t = .ok mid)
    (h : Leads (ts ++ [t]) mid us next) : Leads ts s (t :: us) next := by
  obtain ⟨hwf, hsteps, htracks, hcomplete⟩ := h
  rw [List.append_assoc, List.singleton_append] at htracks hcomplete
  refine ⟨?_, ?_, htracks, hcomplete⟩
  · intro u hu
    rcases List.mem_cons.mp hu with rfl | hu
    · exact ht
    · exact hwf u hu
  · simp only [Compile.steps, hstep, hsteps]

theorem Leads.trans (h : Leads ts s us mid) (h' : Leads (ts ++ us) mid vs next) :
    Leads ts s (us ++ vs) next := by
  obtain ⟨hwf, hsteps, -, -⟩ := h
  obtain ⟨hwf', hsteps', htracks, hcomplete⟩ := h'
  rw [List.append_assoc] at htracks hcomplete
  refine ⟨?_, ?_, htracks, hcomplete⟩
  · intro t ht
    rcases List.mem_append.mp ht with ht | ht
    · exact hwf t ht
    · exact hwf' t ht
  · rw [steps_append, hsteps]
    exact hsteps'

theorem Tracks.exists_step (h : Tracks ts s) (ht : t.WellFormed)
    (hfault : violation? ts t = none) :
    ∃ next, Compile.step s t = .ok next ∧ Tracks (ts ++ [t]) next := by
  have hstep := h.step ht
  rwa [hfault] at hstep

theorem uncalled?_of_complete (h : expectsOperand ts = false) (next : Option Token) :
    uncalled? ts next = none := by
  unfold uncalled?
  split
  · rename_i hlast
    rw [expectsOperand, hlast] at h
    cases h
  · rfl

theorem Tracks.exists_closing (h : Tracks ts s) (complete : expectsOperand ts = false) :
    ∃ us next, Leads ts s us next ∧ groups next.pending = [] := by
  -- on the number of open parentheses: closing one leaves a complete operand
  induction hcount : (groups s.pending).length generalizing ts s with
  | zero => exact ⟨[], s, .refl h complete, List.length_eq_zero_iff.mp hcount⟩
  | succ n ih =>
    have hopen := h.nested.opens_eq
    have hfault : violation? ts ⟨.rightParen, 0⟩ = none := by
      have hne : (closes ts == opens ts) = false := by
        simp [hopen, hcount]
      simp [violation?, uncalled?_of_complete complete, unknownName?, emptyClose?, surplusClose?,
        bareOperator?, isClose, complete, hne]
    obtain ⟨mid, hstep, hmid⟩ := h.exists_step (t := ⟨.rightParen, 0⟩) trivial hfault
    have hopen' := hmid.nested.opens_eq
    have hn : (groups mid.pending).length = n := by
      simp [opens_cons, closes_cons, isOpen, isClose] at hopen'
      omega
    obtain ⟨us, next, hus, hclosed⟩ := ih hmid (expectsOperand_concat ts _) hn
    exact ⟨_, next, hus.cons (t := ⟨.rightParen, 0⟩) trivial hstep, hclosed⟩

theorem Tracks.exists_number (h : Tracks ts s) (called : uncalled? ts none = none) :
    ∃ us next, Leads ts s us next := by
  have hfault : violation? ts ⟨.number 1, 0⟩ = none := by
    have hcall : uncalled? ts (some ⟨.number 1, 0⟩) = none := called
    simp [violation?, hcall, unknownName?, emptyClose?, surplusClose?, bareOperator?, isClose]
  obtain ⟨next, hstep, hnext⟩ := h.exists_step (t := ⟨.number 1, 0⟩) trivial hfault
  have hrefl := Leads.refl hnext (expectsOperand_concat ts _)
  exact ⟨_, next, hrefl.cons (t := ⟨.number 1, 0⟩) trivial hstep⟩

theorem Tracks.exists_operand (h : Tracks ts s) : ∃ us next, Leads ts s us next := by
  cases hexpects : expectsOperand ts with
  | false => exact ⟨[], s, .refl h hexpects⟩
  | true =>
    cases hcall : uncalled? ts none with
    | none => exact h.exists_number hcall
    | some e =>
      -- a function comes last, so a parenthesis comes next
      have hfault : violation? ts ⟨.leftParen, 0⟩ = none := by
        have hparen : uncalled? ts (some ⟨.leftParen, 0⟩) = none := by
          unfold uncalled?
          split <;> rfl
        simp [violation?, hparen, unknownName?, emptyClose?, surplusClose?, bareOperator?, isClose]
      obtain ⟨mid, hstep, hmid⟩ := h.exists_step (t := ⟨.leftParen, 0⟩) trivial hfault
      obtain ⟨us, next, hus⟩ := hmid.exists_number (by simp [uncalled?])
      exact ⟨_, next, hus.cons (t := ⟨.leftParen, 0⟩) trivial hstep⟩

/-- What has been read without an error can be completed. -/
theorem Tracks.completes (h : Tracks ts s) :
    ∃ us next is, Leads ts s us next ∧ Compile.finish next = .ok is := by
  obtain ⟨us, mid, hus⟩ := h.exists_operand
  obtain ⟨vs, next, hvs, hclosed⟩ := hus.tracks.exists_closing hus.complete
  have hwhole := hus.trans hvs
  have htracks := hwhole.tracks
  obtain ⟨out, hout⟩ := drain_eq_ok hclosed next.output
  refine ⟨us ++ vs, next, out.reverse, hwhole, ?_⟩
  simp only [Compile.finish, htracks.previous, missingCall?_eq,
    uncalled?_of_complete hwhole.complete, htracks.expects, hwhole.complete, Bool.false_eq_true,
    if_false, hout]

theorem Leads.ne_nil (h : Leads ts s us next) : ts ++ us ≠ [] := by
  intro hnil
  have hcomplete := h.complete
  rw [hnil] at hcomplete
  cases hcomplete

end Completion

theorem instructions_eq {ts : List Token} (h : ts ≠ []) :
    instructions ts =
      match steps .initial ts with
      | .ok s => finish s
      | .error e => .error e := by
  cases ts with
  | nil => exact absurd rfl h
  | cons t rest => rfl

theorem instructions_of_refuses {ts : List Token} {e : SyntaxError} (h : Refuses ts e)
    (us : List Token) : instructions (ts ++ us) = .error e := by
  have hne : ts ++ us ≠ [] := by
    intro hnil
    rw [(List.append_eq_nil_iff.mp hnil).1] at h
    cases h
  rw [instructions_eq hne, steps_append, h]

theorem instructions_of_leads {ts us : List Token} {s next : State} {is : List Instruction}
    (hs : steps .initial ts = .ok s) (h : Leads ts s us next) (hfinish : finish next = .ok is) :
    instructions (ts ++ us) = .ok is := by
  rw [instructions_eq h.ne_nil, steps_append, hs]
  simp only [h.steps, hfinish]

theorem missing_of_finish {ts : List Token} {s : State} {e : SyntaxError} (h : Tracks ts s)
    (hfinish : finish s = .error e) :
    uncalled? ts none = some e ∨ e = .incomplete ∨ ∃ position, e = .unmatchedOpen position := by
  simp only [finish, h.previous, missingCall?_eq] at hfinish
  cases hcall : uncalled? ts none with
  | some e' =>
    rw [hcall] at hfinish
    cases hfinish
    exact .inl rfl
  | none =>
    right
    rw [hcall] at hfinish
    simp only at hfinish
    split at hfinish
    · cases hfinish
      exact .inl rfl
    · right
      cases hgroups : groups s.pending with
      | nil =>
        obtain ⟨out, hout⟩ := drain_eq_ok hgroups s.output
        rw [hout] at hfinish
        cases hfinish
      | cons position outer =>
        rw [drain_eq_error hgroups] at hfinish
        cases hfinish
        exact ⟨position, rfl⟩

end Compile

namespace Program

open Token Compile

/-- Tokens that are refused are refused with the same error whatever follows them; tokens that are
not refused, be they an expression or lack something at their end, are the beginning of one. -/
theorem ofTokens_viable (ts : List Token) (wf : ∀ t ∈ ts, t.WellFormed) (source : String) :
    (∀ e, Refuses ts e → ∀ us, (∀ t ∈ us, t.WellFormed) →
      ofTokens (ts ++ us) source = .error e) ∧
    ((∀ e, ¬ Refuses ts e) →
      ∃ us, (∀ t ∈ us, t.WellFormed) ∧ ∃ p, ofTokens (ts ++ us) source = .ok p) ∧
    (∀ p, ofTokens ts source = .ok p → ∀ e, ¬ Refuses ts e) ∧
    ∀ e, ofTokens ts source = .error e → Refuses ts e ∨
      (∀ e', ¬ Refuses ts e') ∧
        (ts = [] ∧ e = .empty ∨ uncalled? ts none = some e ∨ e = .incomplete ∨
          ∃ position, e = .unmatchedOpen position) := by
  have hrefused : ∀ e, Refuses ts e → ∀ us, ofTokens (ts ++ us) source = .error e := by
    intro e he us
    simp only [ofTokens, instructions_of_refuses he us]
  refine ⟨fun e he us _ => hrefused e he us, ?_, ?_, ?_⟩
  · intro hviable
    rcases Tracks.initial.steps .nil wf with ⟨e, he, -⟩ | ⟨s, hs, htracks, -⟩
    · exact absurd he (hviable e)
    · obtain ⟨us, next, is, hleads, hfinish⟩ := htracks.completes
      refine ⟨us, hleads.wellFormed, ⟨is, source⟩, ?_⟩
      simp only [ofTokens, instructions_of_leads hs hleads hfinish]
  · intro p hp e he
    have herror := hrefused e he []
    rw [List.append_nil, hp] at herror
    cases herror
  · intro e he
    rcases Tracks.initial.steps .nil wf with ⟨e', he', -⟩ | ⟨s, hs, htracks, -⟩
    · have herror := hrefused e' he' []
      rw [List.append_nil, he] at herror
      cases herror
      exact .inl he'
    · right
      refine ⟨fun e' he' => ?_, ?_⟩
      · rw [Refuses, hs] at he'
        cases he'
      · by_cases hnil : ts = []
        · subst hnil
          cases he
          exact .inl ⟨rfl, rfl⟩
        · simp only [ofTokens, instructions_eq hnil, hs] at he
          split at he
          · cases he
          · rename_i herror
            cases he
            exact .inr (missing_of_finish htracks herror)

/-- `2 sin` lacks the argument and its parentheses, and can be given them. With `x` after it, the
tokens are refused whatever follows. -/
theorem ofTokens_viable_call :
    ofTokens [⟨.number 2, 0⟩, ⟨.function "sin", 2⟩] "2 sin" = .error (.missingCall "sin" 2) ∧
    (∃ us, (∀ t ∈ us, t.WellFormed) ∧
      ∃ p, ofTokens ([⟨.number 2, 0⟩, ⟨.function "sin", 2⟩] ++ us) "2 sin" = .ok p) ∧
    ∀ us, (∀ t ∈ us, t.WellFormed) →
      ofTokens ([⟨.number 2, 0⟩, ⟨.function "sin", 2⟩, ⟨.var, 6⟩] ++ us) "2 sin x" =
        .error (.missingCall "sin" 2) := by
  refine ⟨rfl, ?_, ?_⟩
  · refine (ofTokens_viable _ (by decide) "2 sin").2.1 ?_
    intro e he
    cases he
  · exact (ofTokens_viable _ (by decide) "2 sin x").1 _ rfl

end Program
end CurveSketch
