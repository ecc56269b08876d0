import CpuPlacement.Native.Simulated
import CpuPlacement.Proofs.Layout.Constructed
import CpuPlacement.Proofs.Membership.Run
import Mathlib

/-!
# A thread is a member of one entity

After any run the entities that a live thread is bound to are the one of its latest granted native
call, or none if no call of it was granted yet (`boundTo_eq_latest`). What becomes of a request
after the call plays no part: a thread that is then found on another CPU stays a member.

Every step keeps that registry and events agree (`Manager.Tracks`). Agreement is not symmetric in
the threads: an entry, also one of a thread that has ended, is always where the thread's latest
grant points; but only a thread that is alive must have its entry, because the others may have been
dropped by now.
-/

set_option autoImplicit false

namespace CpuPlacement

variable {σ : Type}

/-! ## Lists of members -/

namespace Registry

variable {r : Registry} {ref other : EntityRef} {me thread : ThreadId}

/-- Joining makes the caller a member of the entity and changes no other members. -/
theorem mem_join : thread ∈ (r.join ref me).members other ↔
    thread ∈ r.members other ∨ (other = ref ∧ thread = me) := by
  simp only [join, update]
  by_cases hsame : other = ref
  · by_cases hmem : me ∈ r.members other
    · simp only [beq_iff_eq, hsame, if_true, List.contains_iff_mem, hsame ▸ hmem, true_and]
      exact ⟨Or.inl, fun h => h.elim id fun hme => hme ▸ hsame ▸ hmem⟩
    · simp [hsame, hsame ▸ hmem]
  · simp [hsame]

/-- Joining makes nobody a member twice. -/
theorem nodup_join (h : (r.members other).Nodup) : ((r.join ref me).members other).Nodup := by
  simp only [join, update]
  split
  · split
    · exact h
    · next hmem =>
      rw [List.contains_iff_mem] at hmem
      exact List.nodup_append.mpr ⟨h, List.nodup_singleton me, by
        rintro a ha b hb rfl
        exact hmem (List.mem_singleton.mp hb ▸ ha)⟩
  · exact h

/-- Dropping members of some entities. -/
theorem mem_update_filter {touches : EntityRef → Bool} {keep : ThreadId → Bool} :
    thread ∈ (r.update touches (·.filter keep)).members ref ↔
      thread ∈ r.members ref ∧ (touches ref = true → keep thread = true) := by
  simp only [update]
  by_cases htouch : touches ref = true
  · simp [htouch]
  · simp [htouch]

/-- Leaving makes nobody a member twice. -/
theorem nodup_update_filter {touches : EntityRef → Bool} {keep : ThreadId → Bool}
    (h : (r.members ref).Nodup) : ((r.update touches (·.filter keep)).members ref).Nodup := by
  simp only [update]
  split
  · exact h.filter keep
  · exact h

end Registry

namespace Manager

variable {m : Manager}

/-- The others are the entities of the same manager but the one that is joined. -/
theorem isOther_iff {current : Entity} {ref : EntityRef} :
    m.isOther current ref = true ↔ ref.layout = m.number ∧ ref ≠ current.ref m.number := by
  obtain ⟨layout, kind, id⟩ := ref
  simp only [isOther, Entity.ref, Bool.and_eq_true, beq_iff_eq, Bool.not_eq_true', ne_eq,
    EntityRef.mk.injEq]
  constructor
  · rintro ⟨rfl, hother⟩
    exact ⟨rfl, fun ⟨_, hkind, hid⟩ => by simp [hkind, hid] at hother⟩
  · rintro ⟨rfl, hother⟩
    refine ⟨rfl, Bool.eq_false_iff.mpr fun hsame => hother ?_⟩
    simpa using hsame

/-- A thread that joins an entity leaves the others of the layout, and nobody else moves. -/
theorem mem_leaveOthers_join {r : Registry} {e : Entity} {me thread : ThreadId} {ref : EntityRef}
    (hhome : ∀ ref, me ∈ r.members ref → ref.layout = m.number) :
    thread ∈ (m.leaveOthers (r.join (e.ref m.number) me) e me).members ref ↔
      (thread ≠ me ∧ thread ∈ r.members ref) ∨ (thread = me ∧ ref = e.ref m.number) := by
  rw [leaveOthers, Registry.mem_update_filter, Registry.mem_join, isOther_iff, bne_iff_ne]
  by_cases hme : thread = me
  · subst hme
    simp only [ne_eq, not_true_eq_false, false_and, true_and, false_or, and_true]
    constructor
    · rintro ⟨hmem, hnot⟩
      by_contra hne
      exact hnot ⟨hmem.elim (hhome ref) fun hsame => absurd hsame hne, hne⟩
    · intro hsame
      exact ⟨.inr hsame, fun hother => hother.2 hsame⟩
  · simp [hme]

/-! ## The registry agrees with the events -/

/-- A thread is where its latest granted call has put it, and nowhere else. -/
structure Tracks (m : Manager) (events : List (Event σ)) (w : World σ) : Prop where
  nodup : ∀ ref, (w.registry.members ref).Nodup
  sound : ∀ {thread : ThreadId} {ref : EntityRef}, thread ∈ w.registry.members ref →
    ∃ e, latest thread events = some e ∧ e.ref m.number = ref
  complete : ∀ {thread : ThreadId} {e : Entity}, w.roster.alive thread = true →
    latest thread events = some e → thread ∈ w.registry.members (e.ref m.number)
  started : ∀ {thread : ThreadId} {e : Entity}, latest thread events = some e →
    thread.number ≤ w.roster.threads.length ∧ e ∈ m.layout.entities

namespace Tracks

variable {backend : Backend σ} {events : List (Event σ)} {w : World σ}

theorem initial (m : Manager) (native : σ) (roster : Roster) :
    m.Tracks [] (World.initial native roster) :=
  ⟨fun _ => List.nodup_nil, nofun, fun _ => nofun, nofun⟩

/-- An event that grants nothing leaves what the events tell as it is. -/
theorem latest_concat_of_not_grants {thread : ThreadId} {event : Event σ}
    (h : event.grants? thread = none) :
    latest thread (events ++ [event]) = latest thread events := by
  rw [latest_concat, h, Option.none_or]

/-- A request that is granted moves the caller to the entity. -/
theorem granted (h : m.Tracks events w) {me : ThreadId} {request : Request} {reply : Reply}
    {e : Entity} (halive : w.roster.alive me = true) (hwithin : request.Within m.layout)
    (hgranted : m.granted? backend w.native me request = some e) :
    m.Tracks (events ++ [.call me request reply (some e)]) (w.afterCall m backend me request) := by
  have hregistry : (w.afterCall m backend me request).registry =
      m.leaveOthers (w.registry.join (e.ref m.number) me) e me := serve_of_granted hgranted
  -- a thread is known only where it was last bound, which is in this manager
  have hhome : ∀ ref, me ∈ w.registry.members ref → ref.layout = m.number := by
    intro ref hmem
    obtain ⟨_, -, rfl⟩ := h.sound hmem
    rfl
  have hself : latest me (events ++ [.call me request reply (some e)]) = some e := by
    simp [latest_concat, Event.grants?]
  -- for all other threads neither the registry nor the events tell anything new
  have hothers : ∀ {thread : ThreadId}, thread ≠ me →
      latest thread (events ++ [.call me request reply (some e)]) = latest thread events :=
    fun hne => latest_concat_of_not_grants (if_neg (Ne.symm hne))
  refine ⟨fun ref => ?_, fun {thread ref} hmem => ?_, fun {thread other} hlive hlatest => ?_,
    fun {thread other} hlatest => ?_⟩
  · rw [hregistry]
    exact Registry.nodup_update_filter (Registry.nodup_join (h.nodup ref))
  · rw [hregistry, mem_leaveOthers_join hhome] at hmem
    rcases hmem with ⟨hne, hmem⟩ | ⟨rfl, rfl⟩
    · exact hothers hne ▸ h.sound hmem
    · exact ⟨e, hself, rfl⟩
  · rw [hregistry, mem_leaveOthers_join hhome]
    by_cases hme : thread = me
    · subst hme
      cases Option.some.inj (hself.symm.trans hlatest)
      exact .inr ⟨rfl, rfl⟩
    · exact .inl ⟨hme, h.complete hlive (hothers hme ▸ hlatest)⟩
  · by_cases hme : thread = me
    · subst hme
      cases Option.some.inj (hself.symm.trans hlatest)
      obtain ⟨htarget, -⟩ := Option.filter_eq_some_iff.mp hgranted
      exact ⟨Roster.number_le_of_alive halive, Request.mem_entities_of_target? hwithin htarget⟩
    · exact h.started (hothers hme ▸ hlatest)

/-- Whatever else is asked only drops members that have ended. -/
theorem not_granted (h : m.Tracks events w) {me : ThreadId} {request : Request} {reply : Reply}
    (hgranted : m.granted? backend w.native me request = none) :
    m.Tracks (events ++ [.call me request reply none]) (w.afterCall m backend me request) := by
  have hsame : ∀ thread, latest thread (events ++ [.call me request reply none]) =
      latest thread events := by
    intro thread
    refine latest_concat_of_not_grants ?_
    simp [Event.grants?]
  obtain hregistry | ⟨touches, hregistry⟩ :
      (w.afterCall m backend me request).registry = w.registry ∨
        ∃ touches, (w.afterCall m backend me request).registry =
          w.registry.reap w.roster.alive touches := serve_of_not_granted_cases hgranted
  · refine ⟨?_, ?_, ?_, ?_⟩ <;> simp only [hsame, hregistry]
    · exact h.nodup
    · exact h.sound
    · exact h.complete
    · exact h.started
  · refine ⟨fun ref => ?_, fun hmem => ?_, fun hlive hlatest => ?_, fun hlatest => ?_⟩
    · exact hregistry ▸ Registry.nodup_update_filter (h.nodup ref)
    · rw [hregistry] at hmem
      exact hsame _ ▸ h.sound (Registry.mem_update_filter.mp hmem).1
    · rw [hregistry]
      exact Registry.mem_update_filter.mpr ⟨h.complete hlive (hsame _ ▸ hlatest), fun _ => hlive⟩
    · exact h.started (hsame _ ▸ hlatest)

/-- Every step keeps the registry in agreement with the events. -/
theorem step (h : m.Tracks events w) {event : Event σ} {next : World σ}
    (step : Step m backend w event next) : m.Tracks (events ++ [event]) next := by
  cases step with
  | start name =>
    have hsame : ∀ thread, latest thread (events ++ [.start name]) = latest thread events :=
      fun _ => latest_concat_of_not_grants rfl
    refine ⟨h.nodup, fun hmem => hsame _ ▸ h.sound hmem, fun {thread e} hlive hlatest => ?_,
      fun hlatest => ?_⟩
    · -- The new thread is not yet in the events.
      rcases Roster.alive_start_cases hlive with hlive | rfl
      · exact h.complete hlive (hsame thread ▸ hlatest)
      · exact absurd (h.started (hsame _ ▸ hlatest)).1 (Nat.not_succ_le_self _)
    · obtain ⟨hle, hmem⟩ := h.started (hsame _ ▸ hlatest)
      refine ⟨Nat.le_trans hle ?_, hmem⟩
      simp [Roster.start]
  | finish thread =>
    have hsame : ∀ other, latest other (events ++ [.finish thread]) = latest other events :=
      fun _ => latest_concat_of_not_grants rfl
    refine ⟨h.nodup, fun hmem => hsame _ ▸ h.sound hmem, fun {other e} hlive hlatest => ?_,
      fun hlatest => ?_⟩
    · rw [Roster.alive_finish, Bool.and_eq_true] at hlive
      exact h.complete hlive.1 (hsame other ▸ hlatest)
    · simpa [Roster.finish] using h.started (hsame _ ▸ hlatest)
  | call me request halive hwithin =>
    cases hgranted : m.granted? backend w.native me request with
    | none => exact h.not_granted hgranted
    | some e => exact h.granted halive hwithin hgranted
  | drift native =>
    have hsame : ∀ thread, latest thread (events ++ [.drift native]) = latest thread events :=
      fun _ => latest_concat_of_not_grants rfl
    exact ⟨h.nodup, fun hmem => hsame _ ▸ h.sound hmem,
      fun hlive hlatest => h.complete hlive (hsame _ ▸ hlatest),
      fun hlatest => h.started (hsame _ ▸ hlatest)⟩

/-- So does every run. -/
theorem run (h : m.Tracks events w) {later : List (Event σ)} {last : World σ}
    (run : Run m backend w later last) : m.Tracks (events ++ later) last := by
  induction run generalizing events with
  | nil => exact (List.append_nil events).symm ▸ h
  | cons step _ ih =>
    rw [List.append_cons]
    exact ih (h.step step)

/-- A live thread is bound to the entity of its latest grant alone. -/
theorem boundTo (h : m.Tracks events w) (hlayout : m.layout.Constructed) {thread : ThreadId}
    (halive : w.roster.alive thread = true) :
    (m.boundTo w.registry w.roster.alive thread).1 = (latest thread events).toList := by
  have hnodup := hlayout.nodup_refs m.number
  have hmember : ∀ e ∈ m.layout.entities,
      (w.registry.live w.roster.alive (e.ref m.number)).contains thread =
        decide (some e = latest thread events) := by
    intro e he
    refine Bool.eq_iff_iff.mpr ?_
    rw [List.contains_iff_mem, Registry.live, List.mem_filter, decide_eq_true_iff]
    constructor
    · rintro ⟨hmem, -⟩
      obtain ⟨other, hlatest, hsame⟩ := h.sound hmem
      rw [hlatest, List.inj_on_of_nodup_map hnodup (h.started hlatest).2 he hsame]
    · exact fun hlatest => ⟨h.complete halive hlatest.symm, halive⟩
  rw [Manager.boundTo, List.filter_congr hmember]
  cases hlatest : latest thread events with
  | none => simp
  | some e =>
    have he := (h.started hlatest).2
    simp only [Option.some.injEq, Option.toList_some]
    rw [List.filter_eq, (hnodup.of_map _).count, if_pos he, List.replicate_one]

end Tracks

end Manager

/-- After every run each thread is at most once among the members of an entity, and a live thread is
bound to the entity of its latest native call that succeeded, and to that alone. A request to be
bound whose native call fails or is not made, because the id is out of range or the entity is of
another kind, is answered with `false` and changes no membership. -/
theorem boundTo_eq_latest {m : Manager} (hlayout : m.layout.Constructed) {backend : Backend σ}
    {native : σ} {roster : Roster} {events : List (Manager.Event σ)} {w : Manager.World σ}
    (run : Manager.Run m backend (.initial native roster) events w) :
    (∀ ref, (w.registry.members ref).Nodup) ∧
    (∀ thread, w.roster.alive thread = true →
      (m.boundTo w.registry w.roster.alive thread).1 = (Manager.latest thread events).toList) ∧
    ∀ me request, request.binds = true → m.granted? backend w.native me request = none →
      (w.serve m backend me request).result = .bound (.ok false) ∧
        (w.serve m backend me request).registry = w.registry := by
  have htracks : m.Tracks events w := (Manager.Tracks.initial m native roster).run run
  refine ⟨htracks.nodup, fun thread halive => htracks.boundTo hlayout halive, ?_⟩
  exact fun me request hbinds hgranted => Manager.serve_of_not_granted hbinds hgranted

/-- The two cores of a flat machine, and a platform that cannot tell where a thread runs. The first
thread is bound to core 1, which cannot be verified; when the machine then refuses every mask, it is
not bound to core 0 instead. -/
theorem boundTo_eq_latest_unverified :
    let m : Manager := ⟨Layout.flat 2, 0⟩
    let backend := Simulated.backend.runningOn (-1)
    let core (id : Nat) : Entity := ⟨id, Mask.single 2 id, .core 0⟩
    let machine := Simulated.new 2
    let events : List (Manager.Event Simulated) :=
      [.call ⟨1⟩ (.bindTo .core 1) (.bound (.ok false)) (some (core 1)),
        .drift (machine.reject true),
        .call ⟨1⟩ (.bindTo .core 0) (.bound (.ok false)) none]
    ∃ w, Manager.Run m backend (.initial machine ⟨[⟨none, true⟩]⟩) events w ∧
      (m.boundTo w.registry w.roster.alive ⟨1⟩).1 = [core 1] := by
  intro m backend core machine events
  obtain ⟨w, run, hroster⟩ : ∃ w,
      Manager.Run m backend (.initial machine ⟨[⟨none, true⟩]⟩) events w ∧
        w.roster = ⟨[⟨none, true⟩]⟩ := by
    refine ⟨_, .cons (.of_reply rfl trivial ?_ ?_) (.cons (.drift _ _)
      (.cons (.of_reply rfl trivial ?_ ?_) (.nil _))), rfl⟩ <;> cbv
  refine ⟨w, run, ?_⟩
  rw [(boundTo_eq_latest (.flat 2) run).2.1 ⟨1⟩ (hroster ▸ rfl)]
  rfl

end CpuPlacement
