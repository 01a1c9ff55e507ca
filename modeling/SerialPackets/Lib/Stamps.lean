import Mathlib.Data.List.Basic
import Mathlib.Data.List.Induction
import Mathlib.Data.Set.Function
import Mathlib.Order.Interval.Set.Defs

/-!
# Stamps from a counter that comes round

The entries of a table are made one at a time, each stamped with the value that a counter has just
moved to. The counter comes round after finitely many values, so that two entries could get the same
stamp. They do not if no entry stays long. The *age* of an entry is the number of values drawn since
it was made. From its stamp the counter has moved on by its age, and no two entries have the same
age, because every value drawn adds one to all ages and is used for at most one entry; so the stamps
differ while all ages are below the length of the cycle.

A history is a list of anything, and `effect` says what each of its elements does to the table.
-/

namespace Stamps

variable {κ β α ε : Type*}

/-- What an event does. -/
inductive Effect (κ β : Type*)
  /-- The counter moves on. -/
  | draw
  /-- The entry of a key is made, and stamped with the value of the counter. -/
  | make (key : κ) (content : β)
  | free (key : κ)
  | keep

namespace Effect

/-- The key whose entry is made or freed. -/
def key? : Effect κ β → Option κ
  | make key _ => some key
  | free key => some key
  | _ => none

def isDraw : Effect κ β → Bool
  | draw => true
  | _ => false

end Effect

/-! ## The events since an entry was made -/

section Since

variable (effect : ε → Effect κ β)

/-- The number of values drawn in the course of some events. -/
def draws (events : List ε) : ℕ := events.countP fun e ↦ (effect e).isDraw

/-- The entry of a key has been made with a content, and these are the events since then. None of
them is about the key. -/
def MadeBefore (history : List ε) (key : κ) (content : β) (since : List ε) : Prop :=
  ∃ before e, history = before ++ e :: since ∧ effect e = .make key content ∧
    ∀ e' ∈ since, (effect e').key? ≠ some key

variable {effect}

theorem draws_concat (events : List ε) (e : ε) :
    draws effect (events ++ [e]) = draws effect events + if (effect e).isDraw then 1 else 0 := by
  rw [draws, List.countP_append, List.countP_singleton]
  rfl

theorem madeBefore_concat_iff {history since : List ε} {e : ε} {key : κ} {content : β} :
    MadeBefore effect (history ++ [e]) key content since ↔
      since = [] ∧ effect e = .make key content ∨
        ∃ since', since = since' ++ [e] ∧ (effect e).key? ≠ some key ∧
          MadeBefore effect history key content since' := by
  constructor
  · rintro ⟨before, made, heq, hmade, hsince⟩
    rcases List.eq_nil_or_concat' since with rfl | ⟨since', last, rfl⟩
    · obtain ⟨-, hlast⟩ := List.append_inj' heq rfl
      exact Or.inl ⟨rfl, List.singleton_inj.mp hlast ▸ hmade⟩
    · rw [← List.cons_append, ← List.append_assoc] at heq
      obtain ⟨hhistory, hlast⟩ := List.append_inj' heq rfl
      obtain rfl := List.singleton_inj.mp hlast
      exact Or.inr ⟨since', rfl, hsince e (List.mem_append_right _ (List.mem_singleton_self e)),
        before, made, hhistory, hmade, fun e' he' ↦ hsince e' (List.mem_append_left _ he')⟩
  · rintro (⟨rfl, hmade⟩ | ⟨since', rfl, he, before, made, rfl, hmade, hsince⟩)
    · exact ⟨history, e, rfl, hmade, fun _ h ↦ absurd h List.not_mem_nil⟩
    · refine ⟨before, made, by rw [List.append_assoc, List.cons_append], hmade, fun e' he' ↦ ?_⟩
      rcases List.mem_append.mp he' with he' | he'
      · exact hsince e' he'
      · exact List.mem_singleton.mp he' ▸ he

end Since

/-! ## The table -/

section Table

variable [DecidableEq κ]

/-- The entries after an event, with their ages. -/
def Effect.apply (entries : κ → Option (β × ℕ)) : Effect κ β → κ → Option (β × ℕ)
  | draw => fun key ↦ (entries key).map (Prod.map id Nat.succ)
  | make key content => Function.update entries key (some (content, 0))
  | free key => Function.update entries key none
  | keep => entries

theorem Effect.apply_of_key?_ne {effect : Effect κ β} {key : κ} (h : effect.key? ≠ some key)
    (entries : κ → Option (β × ℕ)) :
    effect.apply entries key
      = (entries key).map (Prod.map id fun age ↦ age + if effect.isDraw then 1 else 0) := by
  cases effect with
  | draw => rfl
  | make key' content | free key' =>
    have hne : key ≠ key' := fun hkey ↦ h (congrArg some hkey.symm)
    rw [apply, Function.update_of_ne hne]
    exact (congrFun Option.map_id _).symm
  | keep => exact (congrFun Option.map_id _).symm

variable (effect : ε → Effect κ β)

/-- The entries at the end of a history. -/
def table (history : List ε) : κ → Option (β × ℕ) :=
  history.foldl (fun entries e ↦ (effect e).apply entries) fun _ ↦ none

@[simp] theorem table_concat (history : List ε) (e : ε) :
    table effect (history ++ [e]) = (effect e).apply (table effect history) := by
  rw [table, List.foldl_append]
  rfl

variable {effect}

theorem table_concat_of_key?_eq {history : List ε} {e : ε} {key : κ} {content : β} {age : ℕ}
    (h : (effect e).key? = some key) :
    table effect (history ++ [e]) key = some (content, age) ↔
      effect e = .make key content ∧ age = 0 := by
  rw [table_concat]
  generalize effect e = effect' at h ⊢
  cases effect' with
  | make key' content' =>
    obtain rfl : key' = key := Option.some_inj.mp h
    rw [Effect.apply, Function.update_self, Option.some_inj, Prod.mk.injEq, Effect.make.injEq]
    constructor
    · rintro ⟨rfl, rfl⟩
      exact ⟨⟨rfl, rfl⟩, rfl⟩
    · rintro ⟨⟨-, rfl⟩, rfl⟩
      exact ⟨rfl, rfl⟩
  | free key' =>
    obtain rfl : key' = key := Option.some_inj.mp h
    rw [Effect.apply, Function.update_self]
    exact iff_of_false (Option.some_ne_none _).symm fun hmake ↦ nomatch hmake.1
  | draw | keep => exact absurd h.symm (Option.some_ne_none key)

theorem table_concat_of_key?_ne {history : List ε} {e : ε} {key : κ} {content : β} {age : ℕ}
    (h : (effect e).key? ≠ some key) :
    table effect (history ++ [e]) key = some (content, age) ↔
      ∃ age', age = age' + (if (effect e).isDraw then 1 else 0) ∧
        table effect history key = some (content, age') := by
  rw [table_concat, Effect.apply_of_key?_ne h, Option.map_eq_some_iff]
  constructor
  · rintro ⟨⟨content', age'⟩, hold, heq⟩
    obtain ⟨rfl, rfl⟩ := Prod.mk.inj heq
    exact ⟨age', rfl, hold⟩
  · rintro ⟨age', rfl, hold⟩
    exact ⟨(content, age'), hold, rfl⟩

/-- **The table read off the history.** The age of an entry is the number of values drawn since it
was made. -/
theorem table_eq_some_iff {history : List ε} {key : κ} {content : β} {age : ℕ} :
    table effect history key = some (content, age) ↔
      ∃ since, MadeBefore effect history key content since ∧ draws effect since = age := by
  induction history using List.reverseRecOn generalizing age with
  | nil =>
    refine iff_of_false (Option.some_ne_none _).symm ?_
    rintro ⟨since, ⟨before, e, heq, -⟩, -⟩
    exact absurd (congrArg List.length heq) (by simp)
  | append_singleton history e ih =>
    simp only [madeBefore_concat_iff]
    by_cases hkey : (effect e).key? = some key
    · rw [table_concat_of_key?_eq hkey]
      constructor
      · rintro ⟨hmake, rfl⟩
        exact ⟨[], Or.inl ⟨rfl, hmake⟩, rfl⟩
      · rintro ⟨since, ⟨rfl, hmake⟩ | ⟨since', -, hne, -⟩, rfl⟩
        · exact ⟨hmake, rfl⟩
        · exact absurd hkey hne
    · rw [table_concat_of_key?_ne hkey]
      constructor
      · rintro ⟨age', rfl, hold⟩
        obtain ⟨since, hmade, rfl⟩ := ih.mp hold
        exact ⟨since ++ [e], Or.inr ⟨since, rfl, hkey, hmade⟩, draws_concat since e⟩
      · rintro ⟨since, ⟨-, hmake⟩ | ⟨since', rfl, -, hmade⟩, rfl⟩
        · exact absurd (congrArg Effect.key? hmake) hkey
        · exact ⟨draws effect since', draws_concat since' e, ih.mpr ⟨since', hmade, rfl⟩⟩

end Table

/-! ## Stamps -/

section Stamps

variable [DecidableEq κ] {effect : ε → Effect κ β} {next : α → α} {stampOf : β → α}
  {history : List ε} {counter : α} {e : ε}

/-- The counter has moved on from each stamp by the age of the entry, and no two ages are the
same. -/
structure Numbered (effect : ε → Effect κ β) (next : α → α) (stampOf : β → α) (history : List ε)
    (counter : α) : Prop where
  reaches : ∀ key content age, table effect history key = some (content, age) →
    next^[age] (stampOf content) = counter
  distinct : ∀ key key' content content' age, table effect history key = some (content, age) →
    table effect history key' = some (content', age) → key = key'

/-- No entry has the value that was drawn last. -/
def Unused (effect : ε → Effect κ β) (history : List ε) : Prop :=
  ∀ key content, table effect history key ≠ some (content, 0)

theorem Numbered.nil : Numbered effect next stampOf ([] : List ε) counter :=
  ⟨fun _ _ _ h ↦ absurd h.symm (Option.some_ne_none _),
    fun _ _ _ _ _ h ↦ absurd h.symm (Option.some_ne_none _)⟩

theorem table_concat_keep (he : effect e = .keep) :
    table effect (history ++ [e]) = table effect history := by
  rw [table_concat, he, Effect.apply]

theorem Unused.keep (h : Unused effect history) (he : effect e = .keep) :
    Unused effect (history ++ [e]) := by
  rwa [Unused, table_concat_keep he]

theorem Numbered.keep (h : Numbered effect next stampOf history counter) (he : effect e = .keep) :
    Numbered effect next stampOf (history ++ [e]) counter := by
  constructor
  · rw [table_concat_keep he]
    exact h.reaches
  · rw [table_concat_keep he]
    exact h.distinct

/-- Every value drawn adds one to all ages. -/
theorem table_concat_draw_eq_some_iff (he : effect e = .draw) {key : κ} {content : β} {age : ℕ} :
    table effect (history ++ [e]) key = some (content, age) ↔
      ∃ age', age = age' + 1 ∧ table effect history key = some (content, age') := by
  have hkey : (effect e).key? ≠ some key := by
    rw [he]
    exact (Option.some_ne_none key).symm
  rw [table_concat_of_key?_ne hkey, he]
  rfl

theorem unused_draw (he : effect e = .draw) : Unused effect (history ++ [e]) := by
  intro key content h
  obtain ⟨age', hage, -⟩ := (table_concat_draw_eq_some_iff he).mp h
  exact Nat.succ_ne_zero age' hage.symm

theorem Numbered.draw (h : Numbered effect next stampOf history counter) (he : effect e = .draw) :
    Numbered effect next stampOf (history ++ [e]) (next counter) := by
  constructor
  · intro key content age hkey
    obtain ⟨age', rfl, hold⟩ := (table_concat_draw_eq_some_iff he).mp hkey
    rw [Function.iterate_succ_apply', h.reaches key content age' hold]
  · intro key key' content content' age hkey hkey'
    obtain ⟨age₁, rfl, hold⟩ := (table_concat_draw_eq_some_iff he).mp hkey
    obtain ⟨age₂, hage, hold'⟩ := (table_concat_draw_eq_some_iff he).mp hkey'
    obtain rfl := Nat.succ_injective hage
    exact h.distinct key key' content content' age₁ hold hold'

theorem Numbered.make (h : Numbered effect next stampOf history counter)
    (hunused : Unused effect history) {key : κ} {content : β} (he : effect e = .make key content)
    (hcontent : stampOf content = counter) :
    Numbered effect next stampOf (history ++ [e]) counter := by
  have hother {key' : κ} (hne : key' ≠ key) :
      table effect (history ++ [e]) key' = table effect history key' := by
    rw [table_concat, he, Effect.apply, Function.update_of_ne hne]
  have hself : table effect (history ++ [e]) key = some (content, 0) := by
    rw [table_concat, he, Effect.apply, Function.update_self]
  constructor
  · intro key' content' age hkey'
    by_cases hne : key' = key
    · rw [hne, hself] at hkey'
      obtain ⟨rfl, rfl⟩ := Prod.mk.inj (Option.some_inj.mp hkey')
      exact hcontent
    · exact h.reaches key' content' age (hother hne ▸ hkey')
  · intro key₁ key₂ content₁ content₂ age h₁ h₂
    by_cases hne₁ : key₁ = key
    · by_cases hne₂ : key₂ = key
      · rw [hne₁, hne₂]
      · rw [hne₁, hself] at h₁
        obtain ⟨-, rfl⟩ := Prod.mk.inj (Option.some_inj.mp h₁)
        exact absurd (hother hne₂ ▸ h₂) (hunused key₂ content₂)
    · rw [hother hne₁] at h₁
      by_cases hne₂ : key₂ = key
      · rw [hne₂, hself] at h₂
        obtain ⟨-, rfl⟩ := Prod.mk.inj (Option.some_inj.mp h₂)
        exact absurd h₁ (hunused key₁ content₁)
      · exact h.distinct key₁ key₂ content₁ content₂ age h₁ (hother hne₂ ▸ h₂)

theorem Numbered.free (h : Numbered effect next stampOf history counter) {key : κ}
    (he : effect e = .free key) : Numbered effect next stampOf (history ++ [e]) counter := by
  have hold {key' : κ} {entry : β × ℕ} (hkey' : table effect (history ++ [e]) key' = some entry) :
      table effect history key' = some entry := by
    rw [table_concat, he, Effect.apply] at hkey'
    by_cases hne : key' = key
    · rw [hne, Function.update_self] at hkey'
      exact absurd hkey'.symm (Option.some_ne_none entry)
    · rwa [Function.update_of_ne hne] at hkey'
  exact ⟨fun key' content age hkey' ↦ h.reaches key' content age (hold hkey'),
    fun key₁ key₂ content₁ content₂ age h₁ h₂ ↦
      h.distinct key₁ key₂ content₁ content₂ age (hold h₁) (hold h₂)⟩

/-- **Stamps are distinct while all ages are below the length of the cycle.** -/
theorem Numbered.eq_of_stampOf_eq (h : Numbered effect next stampOf history counter) {period : ℕ}
    {key key' : κ} {content content' : β} {age age' : ℕ}
    (hkey : table effect history key = some (content, age))
    (hkey' : table effect history key' = some (content', age'))
    (hcycle : Set.InjOn (fun k ↦ next^[k] (stampOf content)) (Set.Iio period))
    (hage : age < period) (hage' : age' < period) (hstamp : stampOf content = stampOf content') :
    key = key' := by
  have hreach := h.reaches key content age hkey
  have hreach' := h.reaches key' content' age' hkey'
  rw [← hstamp] at hreach'
  obtain rfl : age = age' := hcycle hage hage' (hreach.trans hreach'.symm)
  exact h.distinct key key' content content' age hkey hkey'

end Stamps

end Stamps
