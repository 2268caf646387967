import Mathlib.Data.List.Basic
import PluginLoader.Proofs.ClassHeader.Reading

/-! Class headers cut short and followed by more. A reader that goes from read to read is taken
apart into its reads, and what it says of some bytes is said of the reads that fit in them. So a
header depends on the bytes that its reads take and on nothing behind them, and one that is cut
short fails where its first read that does not fit starts. -/
namespace PluginLoader
namespace Reader
variable {α β : Type}

/-- A reader that goes from read to read. Only a read that does not fit makes it report that the
bytes end. -/
inductive Stepwise {α : Type} : Reader α → Prop
  | done (a : α) : Stepwise (pure a)
  | refused {e : HeaderFault} (calm : ∀ p, e ≠ .truncated p) : Stepwise (throw e)
  | reading {n : Nat} {next : List UInt8 → Reader α} (onward : ∀ bs, Stepwise (next bs)) :
    Stepwise (bytes n >>= next)

/-- Where a reader is after some reads: it ended, or it asks for this many bytes more. -/
inductive Ending (α : Type) where
  | value (a : α)
  | fault (e : HeaderFault) (calm : ∀ p, e ≠ .truncated p)
  | wants (n : Nat)

/-- The bytes that a reader's reads took one after another, and where it is after them. -/
inductive Reads {α : Type} : Reader α → List (List UInt8) → Ending α → Prop
  | done (a : α) : Reads (pure a) [] (.value a)
  | refused {e : HeaderFault} (calm : ∀ p, e ≠ .truncated p) : Reads (throw e) [] (.fault e calm)
  | asks (n : Nat) (next : List UInt8 → Reader α) : Reads (bytes n >>= next) [] (.wants n)
  | took {bs : List UInt8} {next : List UInt8 → Reader α} {chunks : List (List UInt8)}
    {ending : Ending α} (reads : Reads (next bs) chunks ending) :
    Reads (bytes bs.length >>= next) (bs :: chunks) ending

/-- The first read of a reader that does not fit in some bytes starts at this offset. -/
def StopsShort (r : Reader α) (data : List UInt8) (offset : Nat) : Prop :=
  ∃ chunks rest n, data = chunks.flatten ++ rest ∧ Reads r chunks (.wants n) ∧
    rest.length < n ∧ offset = chunks.flatten.length

namespace Ending

/-- With these bytes left a reader cannot go on. -/
def Last : Ending α → List UInt8 → Prop
  | .wants n, rest => rest.length < n
  | _, _ => True

/-- What a reader says that cannot go on. -/
def result : Ending α → Cursor → Except HeaderFault (α × Cursor)
  | .value a, c => .ok (a, c)
  | .fault e _, _ => .error e
  | .wants _, c => .error (.truncated c.offset)

end Ending

/-! ### One read after another -/

theorem bytes_bind_of_fits (next : List UInt8 → Reader α) (bs rest : List UInt8) (o : Nat) :
    (bytes bs.length >>= next) ⟨o, bs ++ rest⟩ = next bs ⟨o + bs.length, rest⟩ := by
  have fits : bytes bs.length ⟨o, bs ++ rest⟩ = .ok (bs, ⟨o + bs.length, rest⟩) :=
    bytes_ok.mpr ⟨rfl, rfl, rfl⟩
  change Except.bind (bytes bs.length ⟨o, bs ++ rest⟩) (fun p => next p.1 p.2) = _
  rw [fits]
  rfl

theorem bytes_bind_of_short {n : Nat} (next : List UInt8 → Reader α) {rest : List UInt8}
    (short : rest.length < n) (o : Nat) :
    (bytes n >>= next) ⟨o, rest⟩ = .error (.truncated o) := by
  have none : cut? n rest = none := by
    apply Option.eq_none_iff_forall_ne_some.mpr
    rintro ⟨front, behind⟩ cut
    obtain ⟨rfl, rfl⟩ := cut_eq_some.mp cut
    rw [List.length_append] at short
    omega
  have fails : bytes n ⟨o, rest⟩ = .error (.truncated o) := by
    simp only [bytes, none]
  change Except.bind (bytes n ⟨o, rest⟩) (fun p => next p.1 p.2) = _
  rw [fails]
  rfl

theorem Reads.says {r : Reader α} {chunks : List (List UInt8)} {ending : Ending α}
    (reads : Reads r chunks ending) {rest : List UInt8} (last : ending.Last rest) (o : Nat) :
    r ⟨o, chunks.flatten ++ rest⟩ = ending.result ⟨o + chunks.flatten.length, rest⟩ := by
  induction reads generalizing o with
  | done a => rfl
  | refused calm => rfl
  | asks n next => exact bytes_bind_of_short next last o
  | @took bs next chunks ending reads ih =>
    rw [List.flatten_cons, List.append_assoc, bytes_bind_of_fits, ih last, List.length_append,
      Nat.add_assoc]

/-- Bytes that end within the reads of a reader end within one of them. -/
theorem Reads.cut {r : Reader α} {chunks : List (List UInt8)} {ending : Ending α}
    (reads : Reads r chunks ending) {k : Nat} (within : k < chunks.flatten.length) :
    ∃ p ≤ k, StopsShort r (chunks.flatten.take k) p := by
  induction reads generalizing k with
  | done a => cases within
  | refused calm => cases within
  | asks n next => cases within
  | @took bs next chunks ending reads ih =>
    rw [List.flatten_cons] at within ⊢
    rw [List.length_append] at within
    -- the first read is the one that lacks bytes, or it gets all it asks for
    by_cases inside : k < bs.length
    · refine ⟨0, Nat.zero_le k, [], _, bs.length, rfl, .asks _ next, ?_, rfl⟩
      rw [List.length_take, List.length_append]
      omega
    · obtain ⟨_, bound, before, rest, n, split, asks, short, rfl⟩ :=
        ih (show k - bs.length < chunks.flatten.length by omega)
      refine ⟨_, ?_, bs :: before, rest, n, ?_, .took asks, short, rfl⟩
      · rw [List.flatten_cons, List.length_append]
        omega
      · rw [List.take_append, List.take_of_length_le (by omega), split, List.flatten_cons,
          List.append_assoc]

theorem Stepwise.reads {r : Reader α} (stepwise : Stepwise r) (data : List UInt8) :
    ∃ chunks rest ending, data = chunks.flatten ++ rest ∧ Reads r chunks ending ∧
      ending.Last rest := by
  -- by the reads still to come; each takes its bytes off the front
  induction stepwise generalizing data with
  | done a => exact ⟨[], data, _, rfl, .done a, trivial⟩
  | refused calm => exact ⟨[], data, _, rfl, .refused calm, trivial⟩
  | @reading n next _ ih =>
    rcases Nat.lt_or_ge data.length n with short | fits
    · exact ⟨[], data, _, rfl, .asks n next, short⟩
    · have length : (data.take n).length = n := by
        rw [List.length_take]
        omega
      obtain ⟨chunks, rest, ending, split, reads, last⟩ := ih (data.take n) (data.drop n)
      refine ⟨data.take n :: chunks, rest, ending, ?_, ?_, last⟩
      · rw [List.flatten_cons, List.append_assoc, ← split, List.take_append_drop]
      · have took := Reads.took reads
        rwa [length] at took

/-! ### Prefixes -/

theorem Reads.run {r : Reader α} {chunks : List (List UInt8)} {ending : Ending α}
    (reads : Reads r chunks ending) {rest : List UInt8} (last : ending.Last rest) :
    r.run (chunks.flatten ++ rest) =
      (ending.result ⟨chunks.flatten.length, rest⟩).map (·.1) := by
  rw [Reader.run, reads.says last, Nat.zero_add]

theorem StopsShort.run {r : Reader α} {data : List UInt8} {p : Nat} (stops : StopsShort r data p) :
    r.run data = .error (.truncated p) := by
  obtain ⟨chunks, rest, n, rfl, reads, short, rfl⟩ := stops
  exact reads.run short

theorem StopsShort.le {r : Reader α} {data : List UInt8} {p : Nat}
    (stops : StopsShort r data p) : p ≤ data.length := by
  obtain ⟨chunks, rest, n, rfl, reads, short, rfl⟩ := stops
  rw [List.length_append]
  exact Nat.le_add_right _ _

theorem StopsShort.take {r : Reader α} {data : List UInt8} {p k : Nat}
    (stops : StopsShort r data p) (behind : p ≤ k) : StopsShort r (data.take k) p := by
  obtain ⟨chunks, rest, n, rfl, reads, short, rfl⟩ := stops
  refine ⟨chunks, rest.take (k - chunks.flatten.length), n, ?_, reads, ?_, rfl⟩
  · rw [List.take_append, List.take_of_length_le behind]
  · rw [List.length_take]
    omega

theorem StopsShort.take_within {r : Reader α} {data : List UInt8} {p k : Nat}
    (stops : StopsShort r data p) (within : k < p) : ∃ p' ≤ k, StopsShort r (data.take k) p' := by
  obtain ⟨chunks, rest, n, rfl, reads, short, rfl⟩ := stops
  rw [List.take_append_of_le_length (Nat.le_of_lt within)]
  exact reads.cut within

/-- A stepwise reader reports the end of the bytes exactly where a read does not fit. -/
theorem Stepwise.truncated_iff {r : Reader α} (stepwise : Stepwise r) {data : List UInt8}
    {p : Nat} : r.run data = .error (.truncated p) ↔ StopsShort r data p := by
  refine ⟨fun truncated => ?_, StopsShort.run⟩
  obtain ⟨chunks, rest, ending, rfl, reads, last⟩ := stepwise.reads data
  rw [reads.run last] at truncated
  cases ending with
  | value a => cases truncated
  | fault e calm => exact absurd (Except.error.inj truncated) (calm p)
  | wants n =>
    cases truncated
    exact ⟨chunks, rest, n, rfl, reads, last, rfl⟩

theorem Stepwise.run_append {r : Reader α} (stepwise : Stepwise r) {data : List UInt8}
    (enough : ∀ p, r.run data ≠ .error (.truncated p)) (suffix : List UInt8) :
    r.run (data ++ suffix) = r.run data := by
  obtain ⟨chunks, rest, ending, rfl, reads, last⟩ := stepwise.reads data
  cases ending with
  | value a => rw [List.append_assoc, reads.run trivial, reads.run last]; rfl
  | fault e calm => rw [List.append_assoc, reads.run trivial, reads.run last]; rfl
  | wants n => exact absurd (reads.run last) (enough _)

/-- A value is read off its own bytes, and off no fewer. -/
theorem Stepwise.run_ok {r : Reader α} (stepwise : Stepwise r) {data : List UInt8} {a : α}
    (value : r.run data = .ok a) :
    ∃ n ≤ data.length, r.run (data.take n) = .ok a ∧
      ∀ k < n, ∃ p ≤ k, r.run (data.take k) = .error (.truncated p) := by
  obtain ⟨chunks, rest, ending, rfl, reads, last⟩ := stepwise.reads data
  rw [reads.run last] at value
  cases ending with
  | value a' =>
    cases value
    refine ⟨chunks.flatten.length, ?_, ?_, ?_⟩
    · rw [List.length_append]
      exact Nat.le_add_right _ _
    · rw [List.take_left, ← List.append_nil chunks.flatten]
      exact reads.run trivial
    · intro k within
      obtain ⟨p, bound, stops⟩ := reads.cut within
      rw [List.take_append_of_le_length (Nat.le_of_lt within)]
      exact ⟨p, bound, stops.run⟩
  | fault e calm => cases value
  | wants n => cases value

/-! ### Readers that go from read to read -/

namespace Stepwise

theorem bind {r : Reader α} {f : α → Reader β} (first : Stepwise r) (second : ∀ a, Stepwise (f a)) :
    Stepwise (r >>= f) := by
  induction first with
  | done a =>
    rw [pure_bind]
    exact second a
  | refused calm => exact .refused calm
  | reading _ ih =>
    rw [bind_assoc]
    exact .reading ih

theorem bytes (n : Nat) : Stepwise (bytes n) := by
  rw [← bind_pure (Reader.bytes n)]
  exact .reading .done

theorem map {r : Reader α} (f : α → β) (stepwise : Stepwise r) : Stepwise (f <$> r) := by
  rw [map_eq_pure_bind]
  exact stepwise.bind fun a => .done (f a)

theorem lift {found : Except HeaderFault α} (calm : ∀ p, found ≠ .error (.truncated p)) :
    Stepwise (liftM found : Reader α) := by
  cases found with
  | ok a => exact .done a
  | error e => exact .refused fun p truncated => calm p (by rw [truncated])

theorem skip (n : Nat) : Stepwise (skip n) := (bytes n).bind fun _ => .done ()

theorem u8 : Stepwise u8 := (bytes 1).bind fun _ => .done _

theorem u16 : Stepwise u16 := (bytes 2).bind fun _ => .done _

theorem u32 : Stepwise u32 := (bytes 4).bind fun _ => .done _

end Stepwise
end Reader

namespace ConstantPool
open Reader

theorem readConstant_stepwise (index : UInt16) : Stepwise (readConstant index) := by
  refine Stepwise.u8.bind fun tag => ?_
  split
  · refine Stepwise.u16.bind fun length => (Stepwise.bytes _).bind fun raw => ?_
    split
    · exact .done _
    · exact .refused nofun
  · split
    · exact Stepwise.u16.bind fun _ => .done _
    · split
      · exact (Stepwise.skip _).bind fun _ => .done _
      · exact .refused nofun

theorem readFrom_stepwise (count index : UInt16) (pool : ConstantPool) :
    Stepwise (readFrom count index pool) := by
  induction index, pool using readFrom.induct count with
  | case1 index pool more ih =>
    unfold readFrom
    rw [dif_pos more]
    exact (readConstant_stepwise index).bind fun (constant, wide) => ih constant wide
  | case2 index pool full =>
    unfold readFrom
    rw [dif_neg full]
    exact .done pool

theorem read_stepwise : Stepwise read := Stepwise.u16.bind fun count => readFrom_stepwise count _ _

theorem typeName_stepwise (pool : ConstantPool) (index : UInt16) :
    Stepwise (liftM (typeName pool index) : Reader String) := by
  refine Stepwise.lift fun p => ?_
  unfold typeName
  split
  · split <;> nofun
  · nofun

end ConstantPool

namespace ClassHeader
open Reader

theorem readName_stepwise (pool : ConstantPool) : Stepwise (readName pool) :=
  Stepwise.u16.bind fun _ => pool.typeName_stepwise _

theorem readSuper_stepwise (pool : ConstantPool) : Stepwise (readSuper pool) := by
  refine Stepwise.u16.bind fun index => ?_
  split
  · exact .done none
  · exact (pool.typeName_stepwise index).map some

theorem readNames_stepwise (pool : ConstantPool) (n : Nat) : Stepwise (readNames pool n) := by
  induction n with
  | zero => exact .done []
  | succ n ih => exact (readName_stepwise pool).bind fun _ => ih.bind fun _ => .done _

theorem read_stepwise : Stepwise read := by
  refine Stepwise.u32.bind fun found => ?_
  dsimp only
  split
  · exact .refused (e := .badMagic found) nofun
  · exact Stepwise.u16.bind fun _ => Stepwise.u16.bind fun _ =>
      ConstantPool.read_stepwise.bind fun pool => Stepwise.u16.bind fun _ =>
      (readName_stepwise pool).bind fun _ => (readSuper_stepwise pool).bind fun _ =>
      Stepwise.u16.bind fun _ => (readNames_stepwise pool _).bind fun _ => .done _

/-- A header depends on the bytes that its reads take and on nothing else. Unless bytes are missing,
more of them change nothing. A header needs all its bytes and none behind them. Where bytes are
missing, the fault tells at which offset the first read that does not fit starts. -/
theorem parse_of_prefixes (data : List UInt8) :
    (∀ suffix, (∀ p, parse data ≠ .error (.truncated p)) →
      parse (data ++ suffix) = parse data) ∧
    (∀ header, parse data = .ok header →
      ∃ n ≤ data.length, parse (data.take n) = .ok header ∧
        ∀ k < n, ∃ p ≤ k, parse (data.take k) = .error (.truncated p)) ∧
    ∀ p, parse data = .error (.truncated p) →
      p ≤ data.length ∧ StopsShort read data p ∧
      (∀ k, p ≤ k → k ≤ data.length → parse (data.take k) = .error (.truncated p)) ∧
      ∀ k < p, ∃ p' ≤ k, parse (data.take k) = .error (.truncated p') := by
  refine ⟨fun suffix enough => read_stepwise.run_append enough suffix,
    fun header found => read_stepwise.run_ok found, fun p truncated => ?_⟩
  have stops := read_stepwise.truncated_iff.mp truncated
  refine ⟨stops.le, stops, fun k behind _ => (stops.take behind).run, fun k within => ?_⟩
  obtain ⟨p', bound, before⟩ := stops.take_within within
  exact ⟨p', bound, before.run⟩

/-- The header of a type named A with two constants and no supertype. -/
def headerOfA : List UInt8 :=
  [0xCA, 0xFE, 0xBA, 0xBE, 0, 0, 0, 52, 0, 3, 1, 0, 1, 65, 7, 0, 1, 0, 0x21, 0, 2, 0, 0, 0, 0]

/-- At offset 11 it has the length of a text, which takes two bytes. -/
theorem prefixes_of_headerOfA :
    (parse headerOfA = .ok ⟨0, 52, ⟨0x21⟩, "A", none, []⟩ ∧
      ∀ suffix, parse (headerOfA ++ suffix) = parse headerOfA) ∧
    parse (headerOfA.take 12) = .error (.truncated 11) ∧
    StopsShort read (headerOfA.take 12) 11 := by
  have whole : parse headerOfA = .ok ⟨0, 52, ⟨0x21⟩, "A", none, []⟩ := by decide +kernel
  have short : parse (headerOfA.take 12) = .error (.truncated 11) := by decide +kernel
  refine ⟨⟨whole, fun suffix => (parse_of_prefixes headerOfA).1 suffix fun p truncated => ?_⟩,
    short, ((parse_of_prefixes (headerOfA.take 12)).2.2 11 short).2.1⟩
  cases whole.symm.trans truncated

end ClassHeader
end PluginLoader
