import Primitives.Builtin
import Primitives.Proofs.Context
import Primitives.Proofs.Power

/-!
What the operations do. Operations on texts and numbers are functions of their arguments; those that use a context
are split into finding the context and a part that works on it. Drawn numbers lie between their bounds
(`Twister.between_mem`).
-/
namespace Primitives

open Arithmetic

/-! ### Text forms -/

theorem Text.ofValue_of_writable {v : Value} (writable : v.Writable) : ∃ s, Text.ofValue v = .ok s := by
  cases v with
  | boolean b => exact ⟨_, rfl⟩
  | integer n =>
    have numeral : Numeral.Writable n := writable
    exact ⟨Numeral.write n, by rw [ofValue, if_pos numeral]⟩
  | text s => exact ⟨s, rfl⟩
  | nothing => cases writable
  | foreign object => cases writable

theorem Console.lineOf_of_writable {values : List Value} (writable : ∀ v ∈ values, v.Writable) :
    ∃ line, Console.lineOf values = .ok line := by
  obtain ⟨texts, done, _⟩ := exists_mapM_ok fun v member => Text.ofValue_of_writable (writable v member)
  exact ⟨_, by rw [Console.lineOf, done]; rfl⟩

/-! ### Draws -/

namespace Twister

theorem firstBelow?_lt {n k tries word : Nat} {g after : Twister}
    (found : firstBelow? n k tries g = some (word, after)) : word < n := by
  induction tries generalizing g with
  | zero => cases found
  | succ tries ih =>
    simp only [firstBelow?] at found
    split at found
    · next below =>
      cases found
      exact below
    · exact ih found

theorem below_lt {n : Nat} (positive : 0 < n) (g : Twister) : (g.below n).1 < n := by
  unfold below
  cases found : firstBelow? n (bitLength n) stateBound g with
  | none => exact positive
  | some drawn => exact firstBelow?_lt found

/-- A number drawn between two bounds lies between them. -/
theorem between_mem {low high : Int} (ordered : low ≤ high) (g : Twister) :
    low ≤ (g.between low high).1 ∧ (g.between low high).1 ≤ high := by
  have offset := below_lt (by omega : 0 < (high - low + 1).toNat) g
  simp only [between]
  omega

theorem bitLength_le {n k : Nat} (small : n < 2 ^ k) : bitLength n ≤ k := by
  unfold bitLength
  split
  · exact Nat.zero_le k
  · next positive => exact (Nat.log2_lt positive).mpr small

end Twister

/-! ### Operations that use a context -/

namespace Console

/-- The host after a prompt has been shown, if there is one to show. -/
def prompted (host : Host) (handle : Handle) : Option String → Host
  | some shown => host.write handle shown
  | none => host

end Console

namespace Host

/-- The host with other settings, that is another seed variable and another default context. -/
def adjusted (host : Host) (content : Option String → Option String) (standing : Option Handle → Option Handle) : Host :=
  { host with seedVariable := content host.seedVariable, defaultContext := standing host.defaultContext }

variable (host : Host) (content : Option String → Option String) (standing : Option Handle → Option Handle)

theorem write_adjusted (handle : Handle) (text : String) :
    (host.adjusted content standing).write handle text = (host.write handle text).adjusted content standing := by
  cases own : host.contexts[handle]?.bind Context.output <;> simp [write, adjusted, modifyContext, own]

theorem takeLine_adjusted (handle : Handle) :
    (host.adjusted content standing).takeLine handle =
      ((host.takeLine handle).1, (host.takeLine handle).2.adjusted content standing) := by
  cases own : host.contexts[handle]?.bind Context.input <;> simp [takeLine, adjusted, modifyContext, own]

end Host

/-- What an operation does once it has found its context. -/
inductive Task where
  | line (text : String)
  | dialogue (prompt : Option String)
  | number (low high : Int)
  | symbols (length : Nat)

namespace Task

/-- The value and the host that a task leaves. -/
def act (handle : Handle) (host : Host) : Task → Value × Host
  | .line text => (.nothing, host.write handle text)
  | .dialogue prompt =>
    let taken := (Console.prompted host handle prompt).takeLine handle
    (.text (String.ofList (Line.content taken.1)), taken.2)
  | .number low high => drawn Value.integer fun g => g.between low high
  | .symbols length => drawn (fun symbols => .text (String.ofList symbols)) fun g => g.symbols length
where
  drawn {α : Type} (value : α → Value) (draws : Twister → α × Twister) : Value × Host :=
    let drawn := draws ((host.contexts[handle]?.map Context.generator).getD (Twister.ofNat 0))
    (value drawn.1, host.modifyContext handle fun c => { c with generator := drawn.2 })

/-- A task as an effect, which no host makes fail. -/
def run (task : Task) (handle : Handle) : Effect Value := Effect.modifyGet fun host => task.act handle host

theorem safe_run (task : Task) (handle : Handle) : Effect.Safe (task.run handle) := Effect.safe_modifyGet _

/-- A task works in its context and looks at no setting of the host. -/
theorem act_adjusted (task : Task) (handle : Handle) (host : Host) (content : Option String → Option String)
    (standing : Option Handle → Option Handle) :
    task.act handle (host.adjusted content standing) =
      ((task.act handle host).1, (task.act handle host).2.adjusted content standing) := by
  cases task with
  | line text => simp only [act, Host.write_adjusted]
  | dialogue prompt =>
    cases prompt with
    | none => simp only [act, Console.prompted, Host.takeLine_adjusted]
    | some shown => simp only [act, Console.prompted, Host.write_adjusted, Host.takeLine_adjusted]
  | number low high | symbols length => rfl

theorem act_number (handle : Handle) (host : Host) (low high : Int) :
    ∃ g : Twister, ((Task.number low high).act handle host).1 = .integer (g.between low high).1 := ⟨_, rfl⟩

theorem draw_pure {α : Type} (handle : Handle) (value : α → Value) (draws : Twister → α × Twister) :
    (Context.draw handle draws >>= fun a => pure (value a)) =
      Effect.modifyGet fun host => act.drawn handle host value draws := rfl

end Task

namespace Random

theorem integer_of_lt {low high : Int} (empty : high < low) (context : Option Handle) :
    integer (.integer low) (.integer high) context = Effect.ofExcept (emptyRange (.integer low) (.integer high)) := by
  simp [integer, Value.exceeds?, Value.number?, empty]

theorem emptyRange_integer {low high : Int} (lowWritable : Numeral.Writable low)
    (highWritable : Numeral.Writable high) :
    emptyRange (.integer low) (.integer high) = .error (.emptyRange (Numeral.write low) (Numeral.write high)) := by
  simp only [emptyRange, Value.shown, if_pos lowWritable, if_pos highWritable, ok_bind]

theorem integer_of_le {low high : Int} (ordered : low ≤ high) (context : Option Handle) :
    integer (.integer low) (.integer high) context =
      Context.resolve context >>= fun handle =>
        if greatestWidth < Twister.bitLength (high - low + 1).toNat then Effect.fail .rangeTooLarge
        else (Task.number low high).run handle := by
  have notEmpty : ¬ high < low := by omega
  simp only [integer, Value.exceeds?, Value.number?, notEmpty, decide_false, Task.draw_pure]
  rfl

/-- Numbers of the integer range are never too many to be drawn from. -/
theorem width_of_inRange {low high : Int} (lowInside : InRange low) (highInside : InRange high) :
    ¬ greatestWidth < Twister.bitLength (high - low + 1).toNat := by
  rw [inRange_iff] at lowInside highInside
  have narrow : Twister.bitLength (high - low + 1).toNat ≤ 33 := Twister.bitLength_le (by omega)
  rw [greatestWidth]
  omega

theorem text_of_nonpos {length : Int} (none_asked : length ≤ 0) (context : Option Handle) :
    text (.integer length) context = pure (.text "") := by
  simp [text, Value.number?, none_asked]

theorem text_of_pos {length : Int} (asked : 0 < length) (context : Option Handle) :
    text (.integer length) context =
      Context.resolve context >>= fun handle =>
        if greatestLength < length then Effect.fail .lengthTooLarge
        else (Task.symbols length.toNat).run handle := by
  have positive : ¬ length ≤ 0 := by omega
  simp only [text, Value.number?, positive, if_false, Task.draw_pure]
  rfl

end Random

namespace Console

/-- The part of reading a line that comes after the context has been found. -/
def converse (prompt : Value) (handle : Handle) : Effect String := do
  match ← Effect.ofExcept (promptText? prompt) with
  | some shown => Effect.modify fun host => host.write handle shown
  | none => pure ()
  let line ← Effect.modifyGet fun host => host.takeLine handle
  return String.ofList (Line.content line)

theorem readLine_eq (prompt : Value) (context : Option Handle) :
    readLine prompt context = Context.resolve context >>= converse prompt := rfl

theorem readLine_of_prompt {prompt : Value} {shown : Option String} (asked : promptText? prompt = .ok shown)
    (context : Option Handle) :
    (readLine prompt context >>= fun line => pure (Value.text line)) =
      Context.resolve context >>= (Task.dialogue shown).run := by
  have conversed : ∀ handle, (converse prompt handle >>= fun line => pure (Value.text line)) =
      (Task.dialogue shown).run handle := by
    intro handle
    rw [converse, asked]
    cases shown <;> rfl
  rw [readLine_eq, Effect.bind_assoc]
  exact congrArg _ (funext conversed)

theorem readLine_of_fault {prompt : Value} {fault : Fault} (failed : promptText? prompt = .error fault)
    (context : Option Handle) : readLine prompt context = Context.resolve context >>= fun _ => Effect.fail fault := by
  have ends : converse prompt = fun _ => Effect.fail fault := by
    funext handle
    rw [converse, failed]
    rfl
  rw [readLine_eq, ends]

theorem print_of_line {values : List Value} {line : String} (shown : lineOf values = .ok line)
    (context : Option Handle) :
    (print values context >>= fun _ => pure Value.nothing) = Context.resolve context >>= (Task.line line).run := by
  rw [print, shown, Effect.ofExcept_ok, Effect.pure_bind, Effect.bind_assoc]
  rfl

theorem print_of_fault {values : List Value} {fault : Fault} (failed : lineOf values = .error fault)
    (context : Option Handle) : print values context = Effect.fail fault := by
  rw [print, failed]
  rfl

end Console

end Primitives
