import PluginLoader.Proofs.ClassHeader.Unreferenced

/-! The loop that reads a constant pool, round by round. The number of the next constant is always
how many slots there are, so that a number finds its own constant or none. Only behind a wide
constant at the largest number does the count of numbers stop one short, and there the loop ends. -/
namespace PluginLoader.ConstantPool

/-- The loop between two constants: the next number, the slots so far, and what is left to read. -/
structure Head where
  index : UInt16
  pool : ConstantPool
  cursor : Cursor

/-- A constant that was read, and its number. -/
structure Numbered where
  index : UInt16
  constant : Constant
  wide : Bool

/-- One round of the loop reads a constant. -/
structure Round (count : UInt16) (head : Head) (found : Numbered) (later : Head) : Prop where
  below : head.index < count
  number : found.index = head.index
  reading : readConstant head.index head.cursor = .ok ((found.constant, found.wide), later.cursor)
  index : later.index = next found.wide head.index
  pool : later.pool = head.pool ++ slots found.constant found.wide

/-- What the loop has found since it began at a cursor, and where it stands. -/
inductive Rounds (count : UInt16) (c : Cursor) : List Numbered → Head → Prop where
  | start : Rounds count c [] ⟨1, #[.unused], c⟩
  | more {found : List Numbered} {head later : Head} {last : Numbered} :
      Rounds count c found head → Round count head last later →
      Rounds count c (found ++ [last]) later

/-- The last constant takes two slots, and the count has room for one. -/
def Overhangs (count : UInt16) (found : List Numbered) : Prop :=
  ∃ last, found.getLast? = some last ∧ last.wide = true ∧ last.index.toNat + 1 = count.toNat

variable {count : UInt16} {c d : Cursor} {found : List Numbered} {head later : Head}
  {last : Numbered} {pool : ConstantPool}

/-! ### One round -/

/-- The number after a narrow constant never wraps. -/
theorem next_narrow {index : UInt16} (below : index < count) :
    (next false index).toNat = index.toNat + 1 := by
  have indexBelow := UInt16.lt_iff_toNat_lt.mp below
  have countBelow := count.toNat_lt
  simp only [next, Bool.false_eq_true, if_false, UInt16.toNat_add, UInt16.reduceToNat]
  omega

theorem next_wide {index : UInt16} (below : index < count) :
    (next true index).toNat = min (index.toNat + 2) 65535 := by
  have indexBelow := UInt16.lt_iff_toNat_lt.mp below
  have countBelow := count.toNat_lt
  simp only [next, if_true]
  split
  · next room =>
    have roomNat := UInt16.lt_iff_toNat_lt.mp room
    simp only [UInt16.toNat_add, UInt16.reduceToNat] at roomNat ⊢
    omega
  · next full =>
    have fullNat := mt UInt16.lt_iff_toNat_lt.mpr full
    simp only [UInt16.reduceToNat] at fullNat ⊢
    omega

theorem size_slots (pool : ConstantPool) (constant : Constant) (wide : Bool) :
    (pool ++ slots constant wide).size = pool.size + if wide then 2 else 1 := by
  cases wide <;> simp [slots]

/-- A slot is one there was before, the constant's own, or the second one of a wide constant. -/
theorem slot_eq_some {constant slot : Constant} {wide : Bool} {i : Nat} :
    (pool ++ slots constant wide)[i]? = some slot ↔
      pool[i]? = some slot ∨ (i = pool.size ∧ slot = constant) ∨
        (i = pool.size + 1 ∧ wide = true ∧ slot = .unused) := by
  rw [← Array.getElem?_toList, Array.toList_appendList, List.getElem?_append,
    ← Array.getElem?_toList, Array.length_toList]
  split
  · next old =>
    have own : i ≠ pool.size := Nat.ne_of_lt old
    have second : i ≠ pool.size + 1 := Nat.ne_of_lt (Nat.lt_succ_of_lt old)
    simp [own, second]
  · next new =>
    have none : pool.toList[i]? = none :=
      List.getElem?_eq_none (Nat.le_of_not_lt (Array.length_toList ▸ new))
    obtain ⟨j, rfl⟩ := Nat.exists_eq_add_of_le (Nat.le_of_not_lt new)
    rw [none, Nat.add_sub_cancel_left]
    cases wide <;> rcases j with _ | _ | j <;> simp [slots, eq_comm]

namespace Round

theorem size (round : Round count head last later) :
    later.pool.size = head.pool.size + if last.wide then 2 else 1 := by
  rw [round.pool, size_slots]

/-- The reader goes on from one head of the loop to the next. -/
theorem readFrom_eq (round : Round count head last later) :
    readFrom count head.index head.pool head.cursor =
      readFrom count later.index later.pool later.cursor := by
  rw [readFrom, dif_pos round.below, Reader.bind_of_ok _ round.reading, round.index, round.pool]

/-- A number below the count stays the number of slots. Only at the largest number may it fall
behind, and no number below the count is left then. -/
theorem aligned (round : Round count head last later)
    (before : head.index.toNat = head.pool.size) (below : later.index < count) :
    later.index.toNat = later.pool.size := by
  have laterBelow := UInt16.lt_iff_toNat_lt.mp below
  have countBelow := count.toNat_lt
  rw [round.size]
  rw [round.index] at laterBelow ⊢
  cases wide : last.wide with
  | false => simp [next_narrow round.below, before]
  | true =>
    rw [wide, next_wide round.below] at laterBelow
    simp only [next_wide round.below, if_true]
    omega

end Round

/-! ### All rounds -/

namespace Rounds

/-- Every head of the loop is where the reader of the whole pool comes to. -/
theorem readFrom_eq (rounds : Rounds count c found head) :
    readFrom count 1 #[.unused] c = readFrom count head.index head.pool head.cursor := by
  induction rounds with
  | start => rfl
  | more _ round ih => rw [ih, round.readFrom_eq]

theorem aligned (rounds : Rounds count c found head) (below : head.index < count) :
    head.index.toNat = head.pool.size := by
  induction rounds with
  | start => rfl
  | more _ round ih => exact round.aligned (ih round.below) below

theorem length_lt (rounds : Rounds count c found head) : found.length < head.index.toNat := by
  induction rounds with
  | start => exact Nat.zero_lt_one
  | more _ round ih =>
    rw [List.length_append, List.length_singleton, round.index]
    exact Nat.lt_of_le_of_lt (Nat.succ_le_of_lt ih) (lt_next round.below _)

theorem length_le (rounds : Rounds count c found head) : found.length ≤ count.toNat - 1 := by
  cases rounds with
  | start => exact Nat.zero_le _
  | more earlier round =>
    have few := earlier.length_lt
    have below := UInt16.lt_iff_toNat_lt.mp round.below
    rw [List.length_append, List.length_singleton]
    omega

/-- The reader comes to an end exactly at a head that is not below the count. -/
theorem of_readFrom (rounds : Rounds count c found head)
    (reading : readFrom count head.index head.pool head.cursor = .ok (pool, d)) :
    ∃ found index, Rounds count c found ⟨index, pool, d⟩ ∧ ¬ index < count := by
  obtain ⟨index, slots, cursor⟩ := head
  induction index, slots using readFrom.induct count generalizing found cursor with
  | case1 index slots below ih =>
    rw [readFrom, dif_pos below] at reading
    obtain ⟨⟨constant, wide⟩, middle, first, reading⟩ := Reader.bind_ok.mp reading
    have round : Round count ⟨index, slots, cursor⟩ ⟨index, constant, wide⟩
        ⟨next wide index, slots ++ ConstantPool.slots constant wide, middle⟩ :=
      ⟨below, rfl, first, rfl, rfl⟩
    exact ih constant wide middle (rounds.more round) reading
  | case2 index slots full =>
    rw [readFrom, dif_neg full] at reading
    obtain ⟨rfl, rfl⟩ := Reader.pure_ok.mp reading
    exact ⟨found, index, rounds, full⟩

end Rounds

/-! ### Slots and numbers -/

/-- A pool has every constant found at its number, behind a wide one an unused slot, and nothing
else. -/
structure Holds (pool : ConstantPool) (found : List Numbered) : Prop where
  zero : pool[0]? = some .unused
  own : ∀ e ∈ found, pool[e.index.toNat]? = some e.constant
  second : ∀ e ∈ found, e.wide = true → pool[e.index.toNat + 1]? = some .unused
  others : ∀ i slot, pool[i]? = some slot → (∀ e ∈ found, e.index.toNat ≠ i) → slot = .unused

theorem Round.holds (round : Round count head last later)
    (aligned : head.index.toNat = head.pool.size) (holds : Holds head.pool found) :
    Holds later.pool (found ++ [last]) := by
  have number : last.index.toNat = head.pool.size := by rw [round.number, aligned]
  rw [round.pool]
  refine ⟨slot_eq_some.mpr (.inl holds.zero), ?_, ?_, ?_⟩
  · intro e member
    rw [slot_eq_some]
    rcases List.mem_append.mp member with earlier | newest
    · exact .inl (holds.own e earlier)
    · cases List.mem_singleton.mp newest
      exact .inr (.inl ⟨number, rfl⟩)
  · intro e member wide
    rw [slot_eq_some]
    rcases List.mem_append.mp member with earlier | newest
    · exact .inl (holds.second e earlier wide)
    · cases List.mem_singleton.mp newest
      exact .inr (.inr ⟨congrArg (· + 1) number, wide, rfl⟩)
  · intro i slot there unnumbered
    rcases slot_eq_some.mp there with before | ⟨rfl, _⟩ | ⟨_, _, unused⟩
    · exact holds.others i slot before fun e earlier =>
        unnumbered e (List.mem_append_left _ earlier)
    · exact absurd number (unnumbered last (List.mem_append_right _ (List.mem_singleton_self _)))
    · exact unused

theorem Rounds.holds (rounds : Rounds count c found head) : Holds head.pool found := by
  induction rounds with
  | start =>
    refine ⟨rfl, nofun, nofun, ?_⟩
    intro i slot there _
    cases i with
    | zero => exact (Option.some.inj there).symm
    | succ i => cases there
  | more earlier round ih => exact round.holds (earlier.aligned round.below) ih

/-- A number that is no constant's leads nowhere, whether it is asked for or a type constant has it
as the number of its name. -/
theorem Holds.typeName (holds : Holds pool found) {index : UInt16}
    (unnumbered : ∀ e ∈ found, e.index ≠ index) :
    typeName pool index = .error (.badConstant index .typeName) ∧
    ∀ referring : UInt16, pool[referring.toNat]? = some (.typeName index) →
      typeName pool referring = .error (.badConstant index .text) := by
  have nothing : ∀ slot, pool[index.toNat]? = some slot → slot = .unused := fun slot there =>
    holds.others _ slot there fun e member same => unnumbered e member (UInt16.toNat_inj.mp same)
  constructor
  · unfold ConstantPool.typeName
    split
    · next there => cases nothing _ there
    · rfl
  · intro referring there
    unfold ConstantPool.typeName
    rw [there]
    dsimp only
    split
    · next named => cases nothing _ named
    · rfl

/-- How many slots there are when the loop has ended. -/
theorem Rounds.size (rounds : Rounds count c found head) (ended : ¬ head.index < count) :
    (Overhangs count found ∧ head.pool.size = count.toNat + 1) ∨
      (¬ Overhangs count found ∧ head.pool.size = max count.toNat 1) := by
  have endedNat := Nat.le_of_not_lt (mt UInt16.lt_iff_toNat_lt.mpr ended)
  cases rounds with
  | start =>
    refine .inr ⟨?_, (Nat.max_eq_right endedNat).symm⟩
    rintro ⟨last, none, _⟩
    cases none
  | @more found middle _ last earlier round =>
    have aligned := earlier.aligned round.below
    have below := UInt16.lt_iff_toNat_lt.mp round.below
    have overhangs : Overhangs count (found ++ [last]) ↔
        last.wide = true ∧ last.index.toNat + 1 = count.toNat := by
      simp [Overhangs]
    rw [overhangs, round.number, round.size]
    rw [round.index] at endedNat
    cases wide : last.wide with
    | false =>
      rw [wide, next_narrow round.below] at endedNat
      simp only [Bool.false_eq_true, false_and, not_false_eq_true, true_and, false_or, if_false]
      omega
    | true =>
      -- the number after the last constant is short by one if it has reached the largest
      rw [wide, next_wide round.below] at endedNat
      have countBelow := count.toNat_lt
      simp only [true_and, if_true]
      omega

/-- Reading the constants of a pool keeps numbers and slots together, whatever the input and the
count. Whenever a constant is read, its number is how many slots there are, and is below the count,
so there are fewer rounds than that. The number after a narrow constant does not wrap; after a wide
one it stops short of two more exactly at the number 65534, and then the loop ends. A pool that was
read has as many slots as the count says and always one, or one more, exactly if the last constant
is a wide one at the last number. In it every constant stands at its number, wide ones have an
unused slot behind them, and every number that is no constant's leads nowhere. -/
theorem numbers_stay_aligned (count : UInt16) (c : Cursor) :
    (∀ found head, Rounds count c found head →
      readFrom count 1 #[.unused] c = readFrom count head.index head.pool head.cursor ∧
      found.length ≤ count.toNat - 1 ∧
      (head.index < count →
        head.index.toNat = head.pool.size ∧ found.length + 1 ≤ count.toNat - 1) ∧
      ∀ last later, Round count head last later →
        (last.wide = false → later.index.toNat = head.index.toNat + 1) ∧
        (last.wide = true → later.index.toNat = min (head.index.toNat + 2) 65535 ∧
          (later.index.toNat ≠ head.index.toNat + 2 ↔ head.index = 65534) ∧
          (head.index = 65534 → ¬ later.index < count))) ∧
    ∀ pool d, readFrom count 1 #[.unused] c = .ok (pool, d) →
      ∃ found index, Rounds count c found ⟨index, pool, d⟩ ∧ ¬ index < count ∧
        ((Overhangs count found ∧ pool.size = count.toNat + 1) ∨
          (¬ Overhangs count found ∧ pool.size = max count.toNat 1)) ∧
        pool[0]? = some .unused ∧
        (∀ e ∈ found, pool[e.index.toNat]? = some e.constant ∧
          (e.wide = true → pool[e.index.toNat + 1]? = some .unused)) ∧
        ∀ index : UInt16, (∀ e ∈ found, e.index ≠ index) →
          typeName pool index = .error (.badConstant index .typeName) ∧
          ∀ referring : UInt16, pool[referring.toNat]? = some (.typeName index) →
            typeName pool referring = .error (.badConstant index .text) := by
  constructor
  · intro found head rounds
    refine ⟨rounds.readFrom_eq, rounds.length_le, ?_, ?_⟩
    · intro below
      have few := rounds.length_lt
      have belowNat := UInt16.lt_iff_toNat_lt.mp below
      exact ⟨rounds.aligned below, by omega⟩
    · intro last later round
      have belowNat := UInt16.lt_iff_toNat_lt.mp round.below
      have countBelow := count.toNat_lt
      rw [round.index]
      constructor
      · intro narrow
        rw [narrow, next_narrow round.below]
      · intro wide
        have largest : head.index = 65534 ↔ head.index.toNat = 65534 := UInt16.toNat_inj.symm
        rw [wide, UInt16.lt_iff_toNat_lt, next_wide round.below, largest]
        omega
  · intro pool d reading
    obtain ⟨found, index, rounds, ended⟩ := Rounds.start.of_readFrom reading
    have holds := rounds.holds
    refine ⟨found, index, rounds, ended, rounds.size ended, holds.zero, ?_, ?_⟩
    · exact fun e member => ⟨holds.own e member, holds.second e member⟩
    · exact fun index unnumbered => holds.typeName unnumbered

/-- A wide constant at number 1, where the count has room for no second slot. The pool has three
slots all the same, and number 2 leads nowhere. -/
theorem second_slot_past_count :
    let c : Cursor := ⟨10, [5, 0, 0, 0, 0, 0, 0, 0, 1]⟩
    readFrom 2 1 #[.unused] c = .ok (#[.unused, .other, .unused], ⟨19, []⟩) ∧
    (∃ found index, Rounds 2 c found ⟨index, #[.unused, .other, .unused], ⟨19, []⟩⟩ ∧
      Overhangs 2 found) ∧
    typeName #[.unused, .other, .unused] 2 = .error (.badConstant 2 .typeName) := by
  intro c
  have reading : readFrom 2 1 #[.unused] c = .ok (#[.unused, .other, .unused], ⟨19, []⟩) := by
    have first : readConstant 1 c = .ok ((.other, true), ⟨19, []⟩) := rfl
    have ended : readFrom 2 3 #[.unused, .other, .unused] ⟨19, []⟩ =
        .ok (#[.unused, .other, .unused], ⟨19, []⟩) := by
      rw [readFrom, dif_neg (by decide)]
      rfl
    rw [readFrom, dif_pos (by decide), Reader.bind_of_ok _ first]
    exact ended
  obtain ⟨found, index, rounds, _, size, _⟩ := (numbers_stay_aligned 2 c).2 _ _ reading
  refine ⟨reading, ⟨found, index, rounds, ?_⟩, rfl⟩
  rcases size with ⟨overhangs, _⟩ | ⟨_, three⟩
  · exact overhangs
  · cases three

end PluginLoader.ConstantPool
