import Mathlib.Data.List.Forall2
import Primitives.Effect

/-!
How effects run. A computation in two parts runs the first part and, unless that ends in a fault, the second
one on the host left behind (`bind_of_ok`, `bind_of_error`). Three properties are carried through sequences:
an effect that is `Still` keeps the host, one that is `Safe` never ends in a fault, and one that is `Atomic`
keeps the host whenever it ends in a fault.
-/
namespace Primitives

variable {ε α β : Type}

@[simp] theorem ok_bind (a : α) (next : α → Except ε β) : (Except.ok a >>= next) = next a := rfl

@[simp] theorem error_bind (error : ε) (next : α → Except ε β) : (Except.error error >>= next) = .error error := rfl

@[simp] theorem pure_eq_ok (a : α) : (pure a : Except ε α) = .ok a := rfl

theorem exists_of_bind_ok {first : Except ε α} {next : α → Except ε β} {b : β} (ended : (first >>= next) = .ok b) :
    ∃ a, first = .ok a ∧ next a = .ok b := by
  cases first with
  | error error => cases ended
  | ok a => exact ⟨a, rfl, ended⟩

/-- A function that gives a result for every member gives the results one by one. -/
theorem exists_mapM_ok {f : α → Except Fault β} {as : List α} (each : ∀ a ∈ as, ∃ b, f a = .ok b) :
    ∃ bs, as.mapM f = .ok bs ∧ List.Forall₂ (fun a b => f a = .ok b) as bs := by
  induction as with
  | nil => exact ⟨[], rfl, .nil⟩
  | cons a rest ih =>
    obtain ⟨b, first⟩ := each a (by simp)
    obtain ⟨bs, done, later⟩ := ih (fun c member => each c (by simp [member]))
    refine ⟨b :: bs, ?_, .cons first later⟩
    rw [List.mapM_cons, first, done]
    rfl

/-- Each member has given a result. -/
theorem exists_ok_of_mapM {f : α → Except ε β} {as : List α} {bs : List β} (done : as.mapM f = .ok bs) {a : α}
    (member : a ∈ as) : ∃ b, f a = .ok b := by
  induction as generalizing bs with
  | nil => cases member
  | cons c rest ih =>
    rw [List.mapM_cons] at done
    obtain ⟨first, isFirst, done⟩ := exists_of_bind_ok done
    obtain ⟨others, areOthers, _⟩ := exists_of_bind_ok done
    rcases List.mem_cons.mp member with rfl | later
    · exact ⟨first, isFirst⟩
    · exact ih areOthers later

/-- Each result comes from a member. -/
theorem exists_of_mem_mapM {f : α → Except ε β} {as : List α} {bs : List β} (done : as.mapM f = .ok bs) {b : β}
    (member : b ∈ bs) : ∃ a ∈ as, f a = .ok b := by
  induction as generalizing bs with
  | nil =>
    cases done
    cases member
  | cons a rest ih =>
    rw [List.mapM_cons] at done
    obtain ⟨first, isFirst, done⟩ := exists_of_bind_ok done
    obtain ⟨others, areOthers, done⟩ := exists_of_bind_ok done
    cases done
    rcases List.mem_cons.mp member with rfl | later
    · exact ⟨a, List.mem_cons_self, isFirst⟩
    · obtain ⟨c, isMember, given⟩ := ih areOthers later
      exact ⟨c, List.mem_cons_of_mem a isMember, given⟩

namespace Effect

@[simp] theorem pure_apply (a : α) (host : Host) : (Pure.pure a : Effect α) host = ⟨.ok a, host, []⟩ := rfl

@[simp] theorem fail_apply (fault : Fault) (host : Host) : (fail fault : Effect α) host = ⟨.error fault, host, []⟩ :=
  rfl

@[simp] theorem ofExcept_apply (result : Except Fault α) (host : Host) : ofExcept result host = ⟨result, host, []⟩ :=
  rfl

@[simp] theorem host_apply (host : Host) : Effect.host host = ⟨.ok host, host, []⟩ := rfl

@[simp] theorem modify_apply (change : Host → Host) (host : Host) : modify change host = ⟨.ok (), change host, []⟩ :=
  rfl

@[simp] theorem modifyGet_apply (change : Host → α × Host) (host : Host) :
    modifyGet change host = ⟨.ok (change host).1, (change host).2, []⟩ := rfl

@[simp] theorem note_apply (source : Source) (message : String) (host : Host) :
    note source message host = ⟨.ok (), host, [⟨source, message⟩]⟩ := rfl

theorem bind_of_ok {first : Effect α} {host after : Host} {a : α} {log : List Notice}
    (ran : first host = ⟨.ok a, after, log⟩) (next : α → Effect β) :
    (first >>= next) host = ⟨(next a after).result, (next a after).host, log ++ (next a after).log⟩ := by
  change Effect.bind first next host = _
  simp only [Effect.bind, ran]

theorem bind_of_error {first : Effect α} {host after : Host} {fault : Fault} {log : List Notice}
    (ran : first host = ⟨.error fault, after, log⟩) (next : α → Effect β) :
    (first >>= next) host = ⟨.error fault, after, log⟩ := by
  change Effect.bind first next host = _
  simp only [Effect.bind, ran]

@[simp] theorem pure_bind (a : α) (next : α → Effect β) : (Pure.pure a >>= next) = next a := rfl

@[simp] theorem ofExcept_ok (a : α) : ofExcept (.ok a) = Pure.pure a := rfl

@[simp] theorem ofExcept_error (fault : Fault) : (ofExcept (.error fault) : Effect α) = fail fault := rfl

@[simp] theorem fail_bind (fault : Fault) (next : α → Effect β) : (fail fault >>= next) = fail fault := rfl

theorem bind_assoc {γ : Type} (first : Effect α) (next : α → Effect β) (last : β → Effect γ) :
    (first >>= next >>= last) = first >>= fun a => next a >>= last := by
  funext host
  rcases ran : first host with ⟨fault | a, after, log⟩
  · rw [bind_of_error (bind_of_error ran next), bind_of_error ran]
  · rw [bind_of_ok ran]
    rcases went : next a after with ⟨fault | b, later, notes⟩
    · have both : (first >>= next) host = ⟨.error fault, later, log ++ notes⟩ := by rw [bind_of_ok ran, went]
      rw [bind_of_error both, bind_of_error went]
    · have both : (first >>= next) host = ⟨.ok b, later, log ++ notes⟩ := by rw [bind_of_ok ran, went]
      rw [bind_of_ok both, bind_of_ok went, List.append_assoc]

/-- The host is the same before and after. -/
def Still (effect : Effect α) : Prop := ∀ host, (effect host).host = host

/-- No host makes the effect end in a fault. -/
def Safe (effect : Effect α) : Prop := ∀ host, ∃ a, (effect host).result = .ok a

/-- A fault leaves the host as it was. -/
def Atomic (effect : Effect α) : Prop :=
  ∀ host fault, (effect host).result = .error fault → (effect host).host = host

theorem still_ofExcept (result : Except Fault α) : Still (ofExcept result) := fun _ => rfl

theorem still_pure (a : α) : Still (Pure.pure a) := fun _ => rfl

theorem Still.bind {first : Effect α} {next : α → Effect β} (still : Still first) (stillNext : ∀ a, Still (next a)) :
    Still (first >>= next) := by
  intro host
  have kept := still host
  rcases ended : first host with ⟨fault | a, after, log⟩
  · rw [ended] at kept
    rw [bind_of_error ended]
    exact kept
  · rw [ended] at kept
    rw [bind_of_ok ended]
    exact (stillNext a after).trans kept

/-- What follows a computation without changing the host makes no difference to it. -/
theorem host_bind_of_still (first : Effect α) {next : α → Effect β} (still : ∀ a, Still (next a)) (host : Host) :
    ((first >>= next) host).host = (first host).host := by
  rcases ended : first host with ⟨fault | a, after, log⟩
  · rw [bind_of_error ended]
  · rw [bind_of_ok ended]
    exact still a after

theorem bind_pure_apply (first : Effect α) (value : α → β) (host : Host) :
    (first >>= fun a => Pure.pure (value a)) host =
      ⟨(first host).result.map value, (first host).host, (first host).log⟩ := by
  rcases ended : first host with ⟨fault | a, after, log⟩
  · rw [bind_of_error ended]
    rfl
  · rw [bind_of_ok ended]
    simp [Except.map]

theorem safe_pure (a : α) : Safe (Pure.pure a) := fun _ => ⟨a, rfl⟩

theorem safe_modifyGet (change : Host → α × Host) : Safe (modifyGet change) := fun host => ⟨(change host).1, rfl⟩

theorem Still.atomic {effect : Effect α} (still : Still effect) : Atomic effect := fun host _ _ => still host

theorem Safe.atomic {effect : Effect α} (safe : Safe effect) : Atomic effect := by
  intro host fault failed
  obtain ⟨a, done⟩ := safe host
  rw [done] at failed
  cases failed

/-- A first part that leaves no trace of its faults may be followed by anything that has none. -/
theorem Atomic.before_safe {first : Effect α} {next : α → Effect β} (atomic : Atomic first)
    (safe : ∀ a, Safe (next a)) : Atomic (first >>= next) := by
  intro host fault failed
  rcases ended : first host with ⟨cause | a, after, log⟩
  · rw [bind_of_error ended]
    simpa [ended] using atomic host cause
  · rw [bind_of_ok ended] at failed
    obtain ⟨b, done⟩ := safe a after
    rw [done] at failed
    cases failed

end Effect

end Primitives
