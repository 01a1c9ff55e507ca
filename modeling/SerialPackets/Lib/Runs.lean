import Mathlib.Algebra.BigOperators.Group.Finset.Piecewise
import Mathlib.Algebra.Order.Group.Multiset
import Mathlib.Data.List.Basic
import Mathlib.Order.Defs.PartialOrder

/-!
# Runs of a partial step function

A system is a partial function from a state and an operation to the next state; it is undefined
where the operation does not come back. A run applies a list of operations in order. The two
inductions every development over such a system needs are done once: an invariant preserved by each
step holds after every run, and a preorder that each step respects relates the two ends of a run.
-/

namespace Runs

variable {σ ι : Type*} (step : σ → ι → Option σ)

/-- The state after a list of operations, if all of them come back. -/
def run (s : σ) (ops : List ι) : Option σ := ops.foldlM step s

variable {step}

@[simp] theorem run_nil (s : σ) : run step s [] = some s := rfl

theorem run_cons (s : σ) (op : ι) (ops : List ι) :
    run step s (op :: ops) = (step s op).bind fun s' ↦ run step s' ops := List.foldlM_cons

theorem run_cons_eq_some {s s' : σ} {op : ι} {ops : List ι} :
    run step s (op :: ops) = some s' ↔ ∃ m, step s op = some m ∧ run step m ops = some s' := by
  rw [run_cons, Option.bind_eq_some_iff]

/-- **Invariants.** What every step preserves, for the operations of the run, holds at its end. -/
theorem invariant_of_run {P : σ → Prop} {s s' : σ} {ops : List ι}
    (hstep : ∀ op ∈ ops, ∀ a b, P a → step a op = some b → P b)
    (hs : P s) (hrun : run step s ops = some s') : P s' := by
  induction ops generalizing s with
  | nil =>
    rw [run_nil, Option.some_inj] at hrun
    exact hrun ▸ hs
  | cons op ops ih =>
    obtain ⟨m, hm, hrest⟩ := run_cons_eq_some.mp hrun
    exact ih (fun o ho ↦ hstep o (List.mem_cons_of_mem op ho))
      (hstep op List.mem_cons_self s m hs hm) hrest

/-- **Progress relations.** A reflexive and transitive relation that every step respects relates
the two ends of a run. -/
theorem related_of_run {R : σ → σ → Prop} (hrefl : ∀ a, R a a)
    (htrans : ∀ a b c, R a b → R b c → R a c) {s s' : σ} {ops : List ι}
    (hstep : ∀ op ∈ ops, ∀ a b, step a op = some b → R a b)
    (hrun : run step s ops = some s') : R s s' :=
  invariant_of_run (P := R s) (fun op hop a b hab h ↦ htrans s a b hab (hstep op hop a b h))
    (hrefl s) hrun

/-- **Lockstep.** Two systems that respect a relation at every step, coming back together, respect
it over every run. -/
theorem rel_run {τ : Type*} {step' : τ → ι → Option τ} {R : σ → τ → Prop}
    (hstep : ∀ op a b, R a b → Option.Rel R (step a op) (step' b op)) {s : σ} {t : τ} (h : R s t)
    (ops : List ι) : Option.Rel R (run step s ops) (run step' t ops) := by
  induction ops generalizing s t with
  | nil => exact .some h
  | cons op ops ih =>
    rw [run_cons, run_cons]
    have hop := hstep op s t h
    generalize step s op = o at hop ⊢
    generalize step' t op = o' at hop ⊢
    rcases hop with hm | _
    · exact ih hm
    · exact .none

/-! ## Histories -/

section Each

variable {P Q R : List ι → ι → Prop}

/-- Every element of a history is related to what came before it. -/
def Each (P : List ι → ι → Prop) (history : List ι) : Prop :=
  ∀ pre a post, history = pre ++ a :: post → P pre a

theorem each_nil : Each P [] := by
  intro pre a post h
  exact absurd h.symm (by simp)

theorem each_concat {history : List ι} {a : ι} :
    Each P (history ++ [a]) ↔ Each P history ∧ P history a := by
  constructor
  · intro h
    refine ⟨?_, h history a [] rfl⟩
    rintro pre b post rfl
    exact h pre b (post ++ [a]) (by simp)
  · rintro ⟨h, ha⟩ pre b post heq
    rcases List.eq_nil_or_concat post with rfl | ⟨post, c, rfl⟩
    · obtain ⟨rfl, hb⟩ := List.append_inj' heq rfl
      rw [← List.singleton_inj.mp hb]
      exact ha
    · rw [List.concat_eq_append, ← List.cons_append, ← List.append_assoc] at heq
      exact h pre b post (List.append_inj' heq rfl).1

theorem Each.and {history : List ι} (hP : Each P history) (hQ : Each Q history) :
    Each (fun pre a ↦ P pre a ∧ Q pre a) history :=
  fun pre a post h ↦ ⟨hP pre a post h, hQ pre a post h⟩

theorem Each.congr {history : List ι} (hR : Each R history)
    (h : ∀ pre a, R pre a → (P pre a ↔ Q pre a)) : Each P history ↔ Each Q history :=
  ⟨fun hP pre a post heq ↦ (h pre a (hR pre a post heq)).mp (hP pre a post heq),
    fun hQ pre a post heq ↦ (h pre a (hR pre a post heq)).mpr (hQ pre a post heq)⟩

theorem each_iff_forall_take {history : List ι} :
    Each P history ↔ ∀ i : Fin history.length, P (history.take i) history[i] := by
  constructor
  · intro h i
    refine h _ _ (history.drop (i + 1)) ?_
    rw [Fin.getElem_fin, ← List.drop_eq_getElem_cons i.isLt, List.take_append_drop]
  · rintro h pre a post rfl
    simpa using h ⟨pre.length, by simp⟩

instance [∀ pre a, Decidable (P pre a)] (history : List ι) : Decidable (Each P history) :=
  decidable_of_iff _ each_iff_forall_take.symm

end Each

/-- **A history is the sum of its parts**: what is read off the elements of a history is what is
read off those with each key, if it is only read off elements that have a key. -/
theorem coe_filterMap_eq_sum {β κ : Type*} [Fintype κ] [DecidableEq κ] {f : ι → Option β}
    {key : ι → Option κ} (hkey : ∀ a, f a ≠ none → key a ≠ none) (history : List ι) :
    ((history.filterMap f : List β) : Multiset β)
      = ∑ k, (((history.filter fun a ↦ key a = some k).filterMap f : List β) : Multiset β) := by
  induction history with
  | nil => simp
  | cons a history ih =>
    have hcons (k : κ) : (((a :: history).filter fun a ↦ key a = some k).filterMap f : List β)
        = (if key a = some k then (f a).toList else [])
          ++ (history.filter fun a ↦ key a = some k).filterMap f := by
      by_cases hk : key a = some k
      · rw [List.filter_cons_of_pos (by simpa using hk), if_pos hk, List.filterMap_cons]
        cases f a <;> rfl
      · rw [List.filter_cons_of_neg (by simpa using hk), if_neg hk, List.nil_append]
    simp only [hcons, ← Multiset.coe_add, Finset.sum_add_distrib, ← ih]
    cases hf : f a with
    | none =>
      rw [List.filterMap_cons_none hf]
      simp
    | some b =>
      obtain ⟨k, hk⟩ := Option.ne_none_iff_exists'.mp (hkey a (hf ▸ Option.some_ne_none b))
      rw [List.filterMap_cons_some hf, hk]
      simp [apply_ite, Multiset.singleton_add]

/-! ## Labelled steps -/

section Reaches

variable {lstep : σ → List ι → σ → Prop}

/-- Runs of a step relation whose steps are labelled with what they consume. -/
inductive Reaches (lstep : σ → List ι → σ → Prop) : σ → List ι → σ → Prop
  | refl (s : σ) : Reaches lstep s [] s
  | tail {s m t : σ} {as bs : List ι} (hrun : Reaches lstep s as m) (hstep : lstep m bs t) :
      Reaches lstep s (as ++ bs) t

namespace Reaches

theorem single {s t : σ} {as : List ι} (h : lstep s as t) : Reaches lstep s as t :=
  Reaches.tail (Reaches.refl s) h

theorem trans {s m t : σ} {as bs : List ι} (h₁ : Reaches lstep s as m)
    (h₂ : Reaches lstep m bs t) : Reaches lstep s (as ++ bs) t := by
  induction h₂ with
  | refl => rwa [List.append_nil]
  | tail hrun hstep ih =>
    rw [← List.append_assoc]
    exact ih.tail hstep

theorem trans_silent {s m t : σ} {as : List ι} (h₁ : Reaches lstep s as m)
    (h₂ : Reaches lstep m [] t) : Reaches lstep s as t := by
  rw [← List.append_nil as]
  exact h₁.trans h₂

theorem invariant {P : σ → Prop} {s t : σ} {as : List ι} (h : Reaches lstep s as t)
    (hstep : ∀ {a b : σ} {bs : List ι}, lstep a bs b → P a → P b) (hs : P s) : P t := by
  induction h with
  | refl => exact hs
  | tail hrun h ih => exact hstep h ih

end Reaches

end Reaches

end Runs
