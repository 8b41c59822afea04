import Primitives.Proofs.Rounding

/-!
Random texts. Each symbol takes two outputs, whose place in the alphabet never lies past its end, although it is found
by rounding (`Twister.symbolIndex_lt`). The symbols of a text stand for consecutive pairs of outputs
(`Twister.symbols_eq`), so that a text can be drawn in parts (`Twister.drawnText_add`).
-/
namespace Primitives

namespace Twister

/-! ### The place in the alphabet -/

/-- The numerator of the fraction with the denominator 2^53 that two outputs make. -/
def fraction (first second : UInt32) : Nat := (first >>> 5).toNat * 2 ^ 26 + (second >>> 6).toNat

theorem fraction_lt (first second : UInt32) : fraction first second < 2 ^ 53 := by
  have upper : (first >>> 5).toNat < 2 ^ 27 := by
    rw [UInt32.toNat_shiftRight, Nat.shiftRight_eq_div_pow]
    exact Nat.div_lt_of_lt_mul first.toNat_lt
  have lower : (second >>> 6).toNat < 2 ^ 26 := by
    rw [UInt32.toNat_shiftRight, Nat.shiftRight_eq_div_pow]
    exact Nat.div_lt_of_lt_mul second.toNat_lt
  unfold fraction
  omega

/-- The product of a fraction below 1 and 62, rounded to 53 digits, is below 62: the number of 53 digits next to 62 is
    nearer to it. -/
theorem NearestEven.lt_of_fraction {numerator product : Nat} (proper : numerator < 2 ^ 53)
    (nearest : NearestEven 53 (numerator * 62) product) : product < 62 * 2 ^ 53 := by
  have neighbour : IsShort 53 (62 * 2 ^ 53 - 64) := ⟨62 * 2 ^ 47 - 1, 6, by norm_num, by norm_num⟩
  have nearer := nearest.nearest _ neighbour
  simp only [Int.abs_eq_natAbs] at nearer
  omega

theorem symbolIndex_eq (first second : UInt32) :
    symbolIndex first second = rounded 53 (fraction first second * 62) / 2 ^ 53 := rfl

/-- Two outputs stand for a place in the alphabet. -/
theorem symbolIndex_lt (first second : UInt32) : symbolIndex first second < 62 := by
  rw [symbolIndex_eq, Nat.div_lt_iff_lt_mul (by decide)]
  exact (rounded_nearestEven (by decide : 0 < 53) _).lt_of_fraction (fraction_lt first second)

/-! ### Symbols -/

theorem length_alphabet : alphabet.length = 62 := by decide

variable (g : Twister)

/-- The symbol that the pair of outputs at place `i` stands for. -/
def symbolAt (i : Nat) : Char := alphabet.getD (symbolIndex (g.output (2 * i)) (g.output (2 * i + 1))) 'a'

theorem getElem?_symbolIndex (i : Nat) :
    alphabet[symbolIndex (g.output (2 * i)) (g.output (2 * i + 1))]? = some (g.symbolAt i) := by
  have inside : symbolIndex (g.output (2 * i)) (g.output (2 * i + 1)) < alphabet.length := by
    rw [length_alphabet]
    exact symbolIndex_lt _ _
  rw [symbolAt, List.getD_eq_getElem?_getD, List.getElem?_eq_getElem inside, Option.getD_some]

theorem symbolAt_mem (i : Nat) : g.symbolAt i ∈ alphabet := List.mem_of_getElem? (g.getElem?_symbolIndex i)

theorem symbolAt_after (count : Nat) : (g.after (2 * count)).symbolAt = fun i => g.symbolAt (count + i) := by
  funext i
  simp only [symbolAt, output_after, Nat.mul_add, Nat.add_assoc]

/-- Symbols that follow others are the first ones of a later generator. -/
theorem map_symbolAt_add (first second : Nat) :
    (List.range (first + second)).map g.symbolAt =
      (List.range first).map g.symbolAt ++ (List.range second).map (g.after (2 * first)).symbolAt := by
  rw [List.range_add, List.map_append, List.map_map, symbolAt_after, Function.comp_def]

theorem symbol_eq : g.symbol = (g.symbolAt 0, g.after 2) := rfl

theorem symbolsAfter_succ (count : Nat) (given : List Char) :
    symbolsAfter (count + 1) given g = symbolsAfter count (g.symbolAt 0 :: given) (g.after 2) := by
  rw [symbolsAfter, symbol_eq]

theorem symbolsAfter_eq (count : Nat) (given : List Char) :
    symbolsAfter count given g = (given.reverse ++ (List.range count).map g.symbolAt, g.after (2 * count)) := by
  induction count generalizing given g with
  | zero => simp [symbolsAfter]
  | succ count ih =>
    have places : (List.range (count + 1)).map g.symbolAt =
        g.symbolAt 0 :: (List.range count).map (g.after 2).symbolAt := by
      rw [Nat.add_comm]
      exact g.map_symbolAt_add 1 count
    rw [symbolsAfter_succ, ih, after_after, places, List.reverse_cons, List.append_assoc, List.singleton_append,
      Nat.mul_succ, Nat.add_comm]

/-- The symbols of the next pairs of outputs. -/
theorem symbols_eq (count : Nat) : g.symbols count = ((List.range count).map g.symbolAt, g.after (2 * count)) :=
  g.symbolsAfter_eq count []

/-! ### Texts -/

/-- The text of the next symbols. -/
def drawnText (count : Nat) : String := String.ofList ((List.range count).map g.symbolAt)

theorem length_drawnText (count : Nat) : (g.drawnText count).length = count := by simp [drawnText]

theorem getElem?_drawnText {count i : Nat} (inside : i < count) :
    (g.drawnText count).toList[i]? = some (g.symbolAt i) := by
  simp [drawnText, inside]

theorem mem_alphabet_of_mem {count : Nat} {symbol : Char} (member : symbol ∈ (g.drawnText count).toList) :
    symbol ∈ alphabet := by
  simp only [drawnText, String.toList_ofList, List.mem_map] at member
  obtain ⟨i, _, rfl⟩ := member
  exact g.symbolAt_mem i

/-- A text drawn in two parts is the text drawn at once. -/
theorem drawnText_add (first second : Nat) :
    g.drawnText (first + second) = g.drawnText first ++ (g.after (2 * first)).drawnText second := by
  rw [drawnText, map_symbolAt_add, String.ofList_append, drawnText, drawnText]

end Twister

/-- The number of bytes of a text whose characters have one byte each. -/
theorem Text.byteLength_of_narrow {cs : List Char} (narrow : ∀ c ∈ cs, c.utf8Size = 1) :
    Text.byteLength (String.ofList cs) = cs.length := by
  induction cs with
  | nil => rfl
  | cons c rest ih =>
    have others := ih fun d member => narrow d (List.mem_cons_of_mem c member)
    rw [Text.byteLength] at others ⊢
    rw [String.ofList_cons, String.utf8ByteSize_append, String.utf8ByteSize_singleton, others,
      narrow c List.mem_cons_self, List.length_cons, Nat.add_comm]

theorem Twister.byteLength_drawnText (g : Twister) (count : Nat) : Text.byteLength (g.drawnText count) = count := by
  have narrow : Twister.alphabet.all (fun c => c.utf8Size = 1) = true := by decide
  have symbols : ∀ c ∈ (List.range count).map g.symbolAt, c.utf8Size = 1 := by
    intro c member
    obtain ⟨i, _, rfl⟩ := List.mem_map.mp member
    exact of_decide_eq_true (List.all_eq_true.mp narrow _ (g.symbolAt_mem i))
  rw [Twister.drawnText, Text.byteLength_of_narrow symbols, List.length_map, List.length_range]

/-! ### Draws in a context -/

namespace Host

variable {host : Host} {handle : Handle} {c : Context}

theorem withGenerator_withGenerator (first second : Twister) :
    (host.withGenerator handle first).withGenerator handle second = host.withGenerator handle second := by
  simp [withGenerator, modifyContext, List.modify_modify_eq, Function.comp_def]

theorem getElem?_withGenerator (there : host.contexts[handle]? = some c) (g : Twister) :
    (host.withGenerator handle g).contexts[handle]? = some { c with generator := g } := by
  simp [withGenerator, modifyContext, there]

end Host

namespace Context

variable {host found : Host} {handle : Handle} {log : List Notice}

/-- The context that is found when none is given is the default one from then on. -/
theorem defaultContext_of_resolve (resolved : resolve none host = ⟨.ok handle, found, log⟩) :
    found.defaultContext = some handle := by
  cases standing : host.defaultContext with
  | some other =>
    rw [resolve_of_default standing] at resolved
    cases resolved
    exact standing
  | none =>
    by_cases bad : BadVariable host.seedVariable
    · obtain ⟨raw, failed⟩ := resolve_of_lacks ⟨rfl, standing, bad⟩
      rw [failed] at resolved
      cases resolved
    · obtain ⟨seed, message, given, shown⟩ := seedOfVariable_of_good bad
      rw [resolve_of_good standing given shown] at resolved
      cases resolved
      rfl

/-- A context that has been found is found again, whatever has been drawn in it. -/
theorem resolve_again {context : Option Handle} (resolved : resolve context host = ⟨.ok handle, found, log⟩)
    (g : Twister) :
    resolve context (found.withGenerator handle g) = ⟨.ok handle, found.withGenerator handle g, []⟩ := by
  cases context with
  | some given =>
    cases resolved
    rfl
  | none =>
    have standing : found.defaultContext = some handle := defaultContext_of_resolve resolved
    exact resolve_of_default standing

end Context

namespace Random

section

variable {host found : Host} {context : Option Handle} {handle : Handle} {log : List Notice} {c : Context} {m : Int}

/-- What a draw of a text does in the context that it finds; without a symbol to draw, the context is left alone. -/
theorem text_of_found (resolved : Context.resolve context host = ⟨.ok handle, found, log⟩)
    (there : found.contexts[handle]? = some c) (possible : m ≤ greatestLength) :
    (text (.integer m) context host).result = .ok (.text (c.generator.drawnText m.toNat)) ∧
    (text (.integer m) context host).host =
      if 0 < m then found.withGenerator handle (c.generator.after (2 * m.toNat)) else host := by
  by_cases asked : 0 < m
  · rw [text_of_pos asked, Effect.bind_of_ok resolved, if_neg (Int.not_lt.mpr possible), if_pos asked]
    simp only [Task.run, Effect.modifyGet_apply, Task.act, Task.drawn_of_there there, Twister.symbols_eq,
      Twister.drawnText, and_self]
  · have nothing : m.toNat = 0 := by omega
    rw [text_of_nonpos (Int.not_lt.mp asked), if_neg asked, nothing]
    exact ⟨rfl, rfl⟩

/-- A text of too many symbols is refused. -/
theorem text_of_long (resolved : Context.resolve context host = ⟨.ok handle, found, log⟩) (long : greatestLength < m) :
    text (.integer m) context host = ⟨.error .lengthTooLarge, found, log⟩ := by
  have asked : 0 < m := by
    rw [greatestLength] at long
    omega
  rw [text_of_pos asked, Effect.bind_of_ok resolved, if_pos long, Effect.fail_apply, List.append_nil]

/-- Two texts that are drawn one after the other are the two parts of a text that is drawn at once. -/
theorem text_split (resolved : Context.resolve context host = ⟨.ok handle, found, log⟩)
    (there : found.contexts[handle]? = some c) {a b : Int} (first_length : 0 ≤ a) (second_length : 0 ≤ b)
    (possible : a + b ≤ greatestLength) :
    (text (.integer b) context (text (.integer a) context host).host).result =
      .ok (.text ((c.generator.after (2 * a.toNat)).drawnText b.toNat)) ∧
    (text (.integer b) context (text (.integer a) context host).host).host =
      (text (.integer (a + b)) context host).host := by
  obtain ⟨_, left⟩ := text_of_found resolved there (show a ≤ greatestLength by omega)
  obtain ⟨_, wholly⟩ := text_of_found resolved there possible
  by_cases some_drawn : 0 < a
  · rw [if_pos some_drawn] at left
    rw [if_pos (by omega), Int.toNat_add first_length second_length, Nat.mul_add] at wholly
    -- The second text finds the context again, with the generator that the first one has left.
    obtain ⟨result, last⟩ := text_of_found (Context.resolve_again resolved (c.generator.after (2 * a.toNat)))
      (Host.getElem?_withGenerator there _) (show b ≤ greatestLength by omega)
    rw [left, wholly]
    refine ⟨result, last.trans ?_⟩
    by_cases more_drawn : 0 < b
    · rw [if_pos more_drawn, Twister.after_after, Host.withGenerator_withGenerator]
    · have nothing : b.toNat = 0 := by omega
      rw [if_neg more_drawn, nothing, Nat.mul_zero, Nat.add_zero]
  · obtain rfl : a = 0 := by omega
    rw [if_neg some_drawn] at left
    rw [left, Int.zero_add]
    exact ⟨(text_of_found resolved there (by omega)).1, rfl⟩

end

/-- Random texts are well formed and can be drawn in parts. A text has as many symbols as asked for, none for a
    negative number, which all come from the alphabet and have one byte each. Every symbol takes two outputs, and
    stands at the place in the alphabet that is 62 times their fraction, rounded to 53 binary digits with ties to even,
    without its fractional part; this place exists whatever the outputs. Only more symbols than a machine word counts
    are refused, and then no output has been taken. Texts drawn one after the other make up the text drawn at once, and
    leave the same host. -/
theorem text_well_formed (host found : Host) (context : Option Handle) (handle : Handle) (log : List Notice)
    (c : Context) (resolved : Context.resolve context host = ⟨.ok handle, found, log⟩)
    (there : found.contexts[handle]? = some c) :
    (Twister.alphabet.length = 62 ∧ Twister.alphabet.Nodup) ∧
    (∀ m ≤ greatestLength, ∃ s, (text (.integer m) context host).result = .ok (.text s) ∧
      (s.length : Int) = max m 0 ∧
      Operation.apply .byteLength [.text s] = .ok (.integer (max m 0)) ∧
      (∀ symbol ∈ s.toList, symbol ∈ Twister.alphabet) ∧
      (∀ i < m.toNat, s.toList[i]? = Twister.alphabet[Twister.symbolIndex (c.generator.output (2 * i))
        (c.generator.output (2 * i + 1))]?) ∧
      (text (.integer m) context host).host =
        if 0 < m then found.withGenerator handle (c.generator.after (2 * m.toNat)) else host) ∧
    (∀ m, greatestLength < m → text (.integer m) context host = ⟨.error .lengthTooLarge, found, log⟩) ∧
    (∀ first second : UInt32, ∃ product,
      (∀ r, Twister.NearestEven 53 (Twister.fraction first second * 62) r ↔ r = product) ∧
      Twister.symbolIndex first second = product / 2 ^ 53 ∧ Twister.symbolIndex first second < 62) ∧
    (∀ a b, 0 ≤ a → 0 ≤ b → a + b ≤ greatestLength → ∃ s t,
      (text (.integer a) context host).result = .ok (.text s) ∧
      (text (.integer b) context (text (.integer a) context host).host).result = .ok (.text t) ∧
      (text (.integer (a + b)) context host).result = .ok (.text (s ++ t)) ∧
      (text (.integer b) context (text (.integer a) context host).host).host =
        (text (.integer (a + b)) context host).host) := by
  refine ⟨⟨Twister.length_alphabet, by decide⟩, ?_, fun m long => text_of_long resolved long, ?_, ?_⟩
  · intro m possible
    obtain ⟨result, left⟩ := text_of_found resolved there possible
    refine ⟨_, result, ?_, ?_, fun symbol member => Twister.mem_alphabet_of_mem _ member, ?_, left⟩
    · rw [Twister.length_drawnText, Int.toNat_eq_max]
    · simp only [Operation.apply, Operation.measureText, Twister.byteLength_drawnText, Int.toNat_eq_max]
    · intro i inside
      rw [Twister.getElem?_drawnText _ inside, Twister.getElem?_symbolIndex]
  · intro first second
    have nearest := Twister.rounded_nearestEven (by decide : 0 < 53) (Twister.fraction first second * 62)
    exact ⟨_, fun r => ⟨fun other => other.unique nearest, fun same => same ▸ nearest⟩,
      Twister.symbolIndex_eq first second, Twister.symbolIndex_lt first second⟩
  · intro a b first_length second_length possible
    obtain ⟨first, _⟩ := text_of_found resolved there (show a ≤ greatestLength by omega)
    obtain ⟨whole, _⟩ := text_of_found resolved there possible
    obtain ⟨second, same⟩ := text_split resolved there first_length second_length possible
    rw [Int.toNat_add first_length second_length, Twister.drawnText_add] at whole
    exact ⟨_, _, first, second, whole, same⟩

/-- The greatest outputs stand for the last symbol, and a text of two such symbols is drawn one by one. -/
theorem text_well_formed_last_symbol :
    let g : Twister := ⟨Vector.replicate 624 0x12DD9BB3, 0⟩
    let host : Host := { Host.fresh none ⟨fun _ => [], 0⟩ "" with contexts := [⟨.integer 0, g, none, none⟩] }
    (text (.integer 1) (some 0) host).result = .ok (.text "9") ∧
    (text (.integer 1) (some 0) (text (.integer 1) (some 0) host).host).host =
      (text (.integer 2) (some 0) host).host := by
  intro g host
  have last : Twister.alphabet[Twister.symbolIndex (g.output 0) (g.output 1)]? = some '9' := by decide +kernel
  obtain ⟨_, drawn, _, _, split⟩ := text_well_formed host host (some 0) 0 [] ⟨.integer 0, g, none, none⟩ rfl rfl
  obtain ⟨s, result, long, _, _, places, _⟩ := drawn 1 (by decide)
  obtain ⟨_, _, _, _, _, same⟩ := split 1 1 (by decide) (by decide) (by decide)
  have one : s = "9" := by
    obtain ⟨symbol, only⟩ := List.length_eq_one_iff.mp (show s.toList.length = 1 by rw [String.length_toList]; omega)
    have first := places 0 (by decide)
    rw [only] at first
    apply String.toList_inj.mp
    rw [only, Option.some.inj (first.trans last)]
    rfl
  exact ⟨one ▸ result, same⟩

/-- A text of 2^63 symbols is refused. -/
theorem text_refused :
    ¬ ∀ (host : Host) (handle : Handle) (c : Context), host.contexts[handle]? = some c → ∀ m : Int, ∃ s,
      (text (.integer m) (some handle) host).result = .ok (.text s) ∧ (s.length : Int) = max m 0 := by
  intro drawn
  let host : Host :=
    { Host.fresh none ⟨fun _ => [], 0⟩ "" with contexts := [⟨.integer 1, Twister.ofNat 1, none, none⟩] }
  obtain ⟨s, result, _⟩ := drawn host 0 _ rfl 9223372036854775808
  rw [text_of_long (Context.resolve_some 0 host) (by decide)] at result
  cases result

end Random

end Primitives
