import CpuPlacement.Thread

/-!
# Threads come and go

A thread that is alive is one that has been started; starting another one changes nothing for it,
and ending a thread ends that thread alone.
-/

set_option autoImplicit false

namespace CpuPlacement

namespace Roster

/-- A thread that is alive stays so when another one starts. -/
theorem alive_start {r : Roster} {thread : ThreadId} (h : r.alive thread = true)
    (name : Option String) : (r.start name).2.alive thread = true := by
  unfold alive thread? at h ⊢
  split
  · next hzero => simp only [hzero, if_true, Option.any_none, Bool.false_eq_true] at h
  · next hzero =>
    rw [if_neg hzero] at h
    obtain ⟨entry, hentry, halive⟩ := (Option.any_eq_true _ _).mp h
    have hlt := (List.getElem?_eq_some_iff.mp hentry).1
    simp only [start, List.getElem?_append_left hlt, hentry, Option.any_some, halive]

/-- Ending a thread ends that thread and no other. -/
theorem alive_finish (r : Roster) (ended thread : ThreadId) :
    (r.finish ended).alive thread = (r.alive thread && thread != ended) := by
  unfold alive thread? finish
  split
  · rfl
  · next hzero =>
    rw [List.getElem?_mapIdx]
    have hindex : thread.number - 1 + 1 = thread.number := Nat.succ_pred hzero
    cases hentry : r.threads[thread.number - 1]? with
    | none => rfl
    | some entry =>
      simp only [Option.map_some, Option.any_some, hindex]
      by_cases hsame : thread = ended
      · subst hsame
        simp
      · have hnumber : thread.number ≠ ended.number := by
          intro hnumber
          exact hsame (congrArg ThreadId.mk hnumber)
        simp [hnumber, hsame]

/-- A thread that is alive has been started. -/
theorem number_le_of_alive {r : Roster} {thread : ThreadId} (h : r.alive thread = true) :
    thread.number ≤ r.threads.length := by
  unfold alive thread? at h
  split at h
  · next hzero => omega
  · next hzero =>
    obtain ⟨entry, hentry, -⟩ := (Option.any_eq_true _ _).mp h
    have hlt := (List.getElem?_eq_some_iff.mp hentry).1
    omega

/-- A thread that is alive after another start was alive before or is the new one. -/
theorem alive_start_cases {r : Roster} {name : Option String} {thread : ThreadId}
    (h : (r.start name).2.alive thread = true) :
    r.alive thread = true ∨ thread = (r.start name).1 := by
  have hle := number_le_of_alive h
  simp only [start, List.length_append, List.length_singleton] at hle
  by_cases hnew : thread.number = r.threads.length + 1
  · exact .inr (congrArg ThreadId.mk hnew)
  · refine .inl ?_
    unfold alive thread? at h ⊢
    split
    · next hzero => rwa [if_pos hzero] at h
    · next hzero =>
      have hlt : thread.number - 1 < r.threads.length := by omega
      rw [if_neg hzero] at h
      simpa only [start, List.getElem?_append_left hlt] using h

end Roster

end CpuPlacement
