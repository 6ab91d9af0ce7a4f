import Mathlib.Data.List.Induction

namespace Smmboss.Segments

/-! # Segments of a log

A log is a list that only grows at its end.  Some of its entries are marks; the
entries between two consecutive marks, and those after the last one, are its
segments.
-/

variable {α : Type u} (mark : α → Bool)

/-- The entries after the last mark. -/
def since (log : List α) : List α :=
  (log.reverse.takeWhile fun entry => !mark entry).reverse

@[simp] theorem since_nil : since mark ([] : List α) = [] := rfl

theorem since_snoc (log : List α) (entry : α) :
    since mark (log ++ [entry]) = if mark entry then [] else since mark log ++ [entry] := by
  cases marked : mark entry with
  | true => simp [since, marked]
  | false => simp [since, marked]

theorem since_eq {before segment : List α} {first : α} (marked : mark first = true)
    (unmarked : ∀ entry ∈ segment, mark entry = false) :
    since mark (before ++ first :: segment) = segment := by
  induction segment using List.reverseRecOn with
  | nil => rw [since_snoc, if_pos marked]
  | append_singleton segment last ih =>
      have rest : ∀ entry ∈ segment, mark entry = false :=
        fun entry member => unmarked entry (by simp [member])
      have plain : mark last = false := unmarked last (by simp)
      rw [← List.cons_append, ← List.append_assoc, since_snoc, ih rest, plain]
      rfl

/-- `after` is `before` and entries behind it, all of them `Allowed`. -/
def Grows (Allowed : α → Prop) (before after : List α) : Prop :=
  ∃ news, after = before ++ news ∧ ∀ entry ∈ news, Allowed entry

namespace Grows

variable {Allowed : α → Prop} {before middle after : List α}

theorem refl (log : List α) : Grows Allowed log log := ⟨[], by simp⟩

theorem snoc (log : List α) {entry : α} (allowed : Allowed entry) :
    Grows Allowed log (log ++ [entry]) := ⟨[entry], by simp [allowed]⟩

theorem trans (first : Grows Allowed before middle) (second : Grows Allowed middle after) :
    Grows Allowed before after := by
  obtain ⟨left, rfl, leftAllowed⟩ := first
  obtain ⟨right, rfl, rightAllowed⟩ := second
  refine ⟨left ++ right, List.append_assoc _ _ _, ?_⟩
  intro entry member
  rcases List.mem_append.mp member with old | new
  · exact leftAllowed entry old
  · exact rightAllowed entry new

theorem mono {Weaker : α → Prop} (grows : Grows Allowed before after)
    (weaken : ∀ entry, Allowed entry → Weaker entry) : Grows Weaker before after := by
  obtain ⟨news, split, allowed⟩ := grows
  exact ⟨news, split, fun entry member => weaken entry (allowed entry member)⟩

theorem drop_allowed (grows : Grows Allowed before after) :
    ∀ entry ∈ after.drop before.length, Allowed entry := by
  obtain ⟨news, rfl, allowed⟩ := grows
  rw [List.drop_left]
  exact allowed

/-- Growing without a mark, a log keeps what it has since its last one. -/
theorem since (grows : Grows (fun entry => mark entry = false) before after) :
    ∃ news, Segments.since mark after = Segments.since mark before ++ news := by
  obtain ⟨news, rfl, unmarked⟩ := grows
  refine ⟨news, ?_⟩
  induction news using List.reverseRecOn with
  | nil => simp
  | append_singleton news last ih =>
      have rest : ∀ entry ∈ news, mark entry = false :=
        fun entry member => unmarked entry (by simp [member])
      have plain : mark last = false := unmarked last (by simp)
      rw [← List.append_assoc, since_snoc, ih rest, plain]
      simp

end Grows

/-- `Segment` holds of what stands between any two consecutive marks. -/
def Between (Segment : List α → Prop) (log : List α) : Prop :=
  ∀ before first segment second after,
    log = before ++ first :: (segment ++ second :: after) →
    mark first = true → mark second = true → (∀ entry ∈ segment, mark entry = false) →
    Segment segment

theorem Between.nil (Segment : List α → Prop) : Between mark Segment [] := by
  intro before first segment second after same
  simp at same

/-- An appended mark closes the last segment; another entry closes none. -/
theorem Between.snoc {Segment : List α → Prop} {log : List α} {entry : α}
    (closed : Between mark Segment log)
    (last : mark entry = true → Segment (since mark log)) :
    Between mark Segment (log ++ [entry]) := by
  intro before first segment second after same firstMark secondMark unmarked
  induction after using List.reverseRecOn with
  | nil =>
      have parts : log ++ [entry] = (before ++ first :: segment) ++ [second] := by simp [same]
      obtain ⟨rfl, entrySame⟩ := List.append_inj' parts rfl
      obtain rfl : entry = second := by simpa using entrySame
      simpa only [since_eq mark firstMark unmarked] using last secondMark
  | append_singleton after final _ =>
      have parts : log ++ [entry] =
          (before ++ first :: (segment ++ second :: after)) ++ [final] := by simp [same]
      obtain ⟨same, -⟩ := List.append_inj' parts rfl
      exact closed before first segment second after same firstMark secondMark unmarked

/-- `Holds` is true of every entry and what stands before it. -/
def Throughout (Holds : List α → α → Prop) (log : List α) : Prop :=
  ∀ before entry after, log = before ++ entry :: after → Holds before entry

namespace Throughout

variable {Holds : List α → α → Prop} {log : List α}

theorem nil (Holds : List α → α → Prop) : Throughout Holds [] := by
  intro before entry after same
  simp at same

theorem snoc {entry : α} (throughout : Throughout Holds log) (last : Holds log entry) :
    Throughout Holds (log ++ [entry]) := by
  intro before other after same
  induction after using List.reverseRecOn with
  | nil =>
      obtain ⟨rfl, lastSame⟩ := List.append_inj' same rfl
      obtain rfl : entry = other := by simpa using lastSame
      exact last
  | append_singleton after final _ =>
      have parts : log ++ [entry] = (before ++ other :: after) ++ [final] := by simp [same]
      obtain ⟨same, -⟩ := List.append_inj' parts rfl
      exact throughout before other after same

theorem grows {grown : List α} (throughout : Throughout Holds log)
    (grows : Grows (fun entry => ∀ before, Holds before entry) log grown) :
    Throughout Holds grown := by
  obtain ⟨news, rfl, always⟩ := grows
  induction news using List.reverseRecOn with
  | nil => simpa using throughout
  | append_singleton news last ih =>
      have rest : ∀ entry ∈ news, ∀ before, Holds before entry :=
        fun entry member => always entry (by simp [member])
      rw [← List.append_assoc]
      exact (ih rest).snoc (always last (by simp) _)

theorem of_snoc {entry : α} (throughout : Throughout Holds (log ++ [entry])) :
    Throughout Holds log ∧ Holds log entry := by
  refine ⟨?_, throughout log entry [] rfl⟩
  rintro before other after rfl
  exact throughout before other (after ++ [entry]) (by simp)

/-- Two conditions that agree where one held so far hold throughout the same logs. -/
theorem iff_of_step {Other : List α → α → Prop}
    (step : ∀ before entry, Throughout Holds before → (Holds before entry ↔ Other before entry)) :
    Throughout Holds log ↔ Throughout Other log := by
  induction log using List.reverseRecOn with
  | nil => exact iff_of_true (nil Holds) (nil Other)
  | append_singleton log last ih =>
      constructor
      · intro throughout
        obtain ⟨before, holds⟩ := throughout.of_snoc
        exact (ih.mp before).snoc ((step log last before).mp holds)
      · intro throughout
        obtain ⟨before, other⟩ := throughout.of_snoc
        exact (ih.mpr before).snoc ((step log last (ih.mpr before)).mpr other)

end Throughout

end Smmboss.Segments
