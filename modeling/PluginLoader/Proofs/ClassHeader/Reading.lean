import PluginLoader.ClassHeader

/-! What a reader that succeeds has taken. Every reader of a class header is described by the bytes
it takes off the front of what was left, so that readers one after another are described by bytes
one after another. -/
namespace PluginLoader

/-- After these bytes of what was left, a cursor is this one. -/
def Cursor.Spans (c : Cursor) (bs : List UInt8) (after : Cursor) : Prop :=
  c.rest = bs ++ after.rest ∧ after.offset = c.offset + bs.length

/-- The bytes of a number, most significant first. -/
def bytes16 (n : UInt16) : List UInt8 := [UInt8.ofNat (n.toNat / 256), UInt8.ofNat (n.toNat % 256)]

def bytes32 (n : UInt32) : List UInt8 :=
  [UInt8.ofNat (n.toNat / 16777216), UInt8.ofNat (n.toNat / 65536 % 256),
   UInt8.ofNat (n.toNat / 256 % 256), UInt8.ofNat (n.toNat % 256)]

namespace Cursor

@[simp] theorem spans_nil {c after : Cursor} : c.Spans [] after ↔ after = c := by
  obtain ⟨offset, rest⟩ := c
  obtain ⟨offsetAfter, restAfter⟩ := after
  simp only [Spans, List.nil_append, List.length_nil, Nat.add_zero, Cursor.mk.injEq]
  constructor
  · rintro ⟨same, rfl⟩
    exact ⟨rfl, same.symm⟩
  · rintro ⟨rfl, same⟩
    exact ⟨same.symm, rfl⟩

theorem spans_append {c after : Cursor} {first second : List UInt8} :
    c.Spans (first ++ second) after ↔
      ∃ middle, c.Spans first middle ∧ middle.Spans second after := by
  constructor
  · rintro ⟨rest, offset⟩
    refine ⟨⟨c.offset + first.length, second ++ after.rest⟩, ⟨?_, rfl⟩, rfl, ?_⟩
    · rw [rest, List.append_assoc]
    · rw [offset, List.length_append, Nat.add_assoc]
  · rintro ⟨middle, ⟨rest, offset⟩, restMiddle, offsetMiddle⟩
    constructor
    · rw [rest, restMiddle, List.append_assoc]
    · rw [offsetMiddle, offset, List.length_append, Nat.add_assoc]

theorem spans_cons {c after : Cursor} {b : UInt8} {bs : List UInt8} :
    c.Spans (b :: bs) after ↔ ∃ middle, c.Spans [b] middle ∧ middle.Spans bs after := by
  rw [← List.singleton_append, spans_append]

end Cursor

theorem cut_eq_some {α : Type} {n : Nat} {l front rest : List α} :
    cut? n l = some (front, rest) ↔ front.length = n ∧ l = front ++ rest := by
  induction n generalizing l front with
  | zero =>
    simp only [cut?, Option.some.injEq, Prod.mk.injEq, List.length_eq_zero_iff]
    constructor
    · rintro ⟨rfl, rfl⟩
      exact ⟨rfl, rfl⟩
    · rintro ⟨rfl, rfl⟩
      exact ⟨rfl, rfl⟩
  | succ n ih =>
    cases l with
    | nil => cases front <;> simp [cut?]
    | cons a l =>
      cases front with
      | nil => simp [cut?]
      | cons b front =>
        simp only [cut?, Option.map_eq_some_iff, Prod.mk.injEq, List.cons.injEq, List.length_cons,
          Nat.add_right_cancel_iff, List.cons_append]
        constructor
        · rintro ⟨⟨front', rest'⟩, found, ⟨rfl, rfl⟩, rfl⟩
          obtain ⟨length, whole⟩ := ih.mp found
          exact ⟨length, rfl, whole⟩
        · rintro ⟨length, rfl, whole⟩
          exact ⟨(front, rest), ih.mpr ⟨length, whole⟩, ⟨rfl, rfl⟩, rfl⟩

/-! ### Numbers -/

theorem bytes16_iff {bs : List UInt8} {n : UInt16} :
    bs = bytes16 n ↔ bs.length = 2 ∧ n = UInt16.ofNat (Reader.bigEndian bs) := by
  constructor
  · rintro rfl
    have bound := n.toNat_lt
    refine ⟨rfl, UInt16.toNat_inj.mp ?_⟩
    simp [bytes16, Reader.bigEndian]
    omega
  · rintro ⟨two, rfl⟩
    match bs, two with
    | [a, b], _ =>
      have ha := a.toNat_lt
      have hb := b.toNat_lt
      simp only [bytes16, Reader.bigEndian, List.foldl, List.cons.injEq, and_true]
      constructor
      · apply UInt8.toNat_inj.mp
        simp
        omega
      · apply UInt8.toNat_inj.mp
        simp

theorem bytes32_iff {bs : List UInt8} {n : UInt32} :
    bs = bytes32 n ↔ bs.length = 4 ∧ n = UInt32.ofNat (Reader.bigEndian bs) := by
  constructor
  · rintro rfl
    have bound := n.toNat_lt
    refine ⟨rfl, UInt32.toNat_inj.mp ?_⟩
    simp [bytes32, Reader.bigEndian]
    omega
  · rintro ⟨four, rfl⟩
    match bs, four with
    | [a, b, c, d], _ =>
      have ha := a.toNat_lt
      have hb := b.toNat_lt
      have hc := c.toNat_lt
      have hd := d.toNat_lt
      simp only [bytes32, Reader.bigEndian, List.foldl, List.cons.injEq, and_true]
      refine ⟨?_, ?_, ?_, ?_⟩ <;> apply UInt8.toNat_inj.mp <;> simp <;> omega

/-! ### Readers -/

namespace Reader
variable {α β : Type} {c after : Cursor}

theorem bind_ok {r : Reader α} {f : α → Reader β} {y : β} :
    (r >>= f) c = .ok (y, after) ↔
      ∃ x middle, r c = .ok (x, middle) ∧ f x middle = .ok (y, after) := by
  change Except.bind (r c) (fun p => f p.1 p.2) = .ok (y, after) ↔ _
  rcases r c with e | ⟨x, middle⟩
  · simp [Except.bind]
  · constructor
    · intro found
      exact ⟨x, middle, rfl, found⟩
    · rintro ⟨_, _, ⟨⟩, found⟩
      exact found

theorem pure_ok {x y : α} : (pure x : Reader α) c = .ok (y, after) ↔ y = x ∧ after = c := by
  change (.ok (x, c) : Except HeaderFault _) = .ok (y, after) ↔ _
  simp [eq_comm]

theorem map_ok {r : Reader α} {f : α → β} {y : β} :
    (f <$> r) c = .ok (y, after) ↔ ∃ x, r c = .ok (x, after) ∧ y = f x := by
  rw [map_eq_pure_bind, bind_ok]
  simp only [pure_ok]
  constructor
  · rintro ⟨x, _, found, same, rfl⟩
    exact ⟨x, found, same⟩
  · rintro ⟨x, found, same⟩
    exact ⟨x, after, found, same, rfl⟩

theorem lift_ok {found : Except HeaderFault α} {y : α} :
    (liftM found : Reader α) c = .ok (y, after) ↔ found = .ok y ∧ after = c := by
  change Except.bind found (fun x => .ok (x, c)) = .ok (y, after) ↔ _
  cases found with
  | error e => simp [Except.bind]
  | ok x => simp [Except.bind, eq_comm]

theorem throw_ok {e : HeaderFault} {y : α} : ¬ (throw e : Reader α) c = .ok (y, after) := by
  intro failed
  cases failed

theorem bytes_ok {n : Nat} {bs : List UInt8} :
    bytes n c = .ok (bs, after) ↔ bs.length = n ∧ c.Spans bs after := by
  unfold bytes Cursor.Spans
  cases cutting : cut? n c.rest with
  | none =>
    simp only [reduceCtorEq, false_iff]
    rintro ⟨length, rest, _⟩
    rw [cut_eq_some.mpr ⟨length, rest⟩] at cutting
    cases cutting
  | some parts =>
    obtain ⟨front, rest⟩ := parts
    obtain ⟨length, whole⟩ := cut_eq_some.mp cutting
    subst length
    rw [whole]
    constructor
    · rintro ⟨⟩
      exact ⟨rfl, rfl, rfl⟩
    · rintro ⟨length, rest, offset⟩
      obtain ⟨rfl, rfl⟩ := List.append_inj rest length.symm
      obtain ⟨_, _⟩ := after
      cases offset
      rfl

/-- A number that bytes of one length denote is read off the bytes that write it. -/
theorem number_ok {n : Nat} {x : α} {value : List UInt8 → α} {written : α → List UInt8}
    (inverse : ∀ {bs x}, bs = written x ↔ bs.length = n ∧ x = value bs) :
    (do return value (← bytes n) : Reader α) c = .ok (x, after) ↔ c.Spans (written x) after := by
  simp only [bind_ok, pure_ok, bytes_ok]
  constructor
  · rintro ⟨bs, _, ⟨length, spans⟩, denotes, rfl⟩
    rwa [← inverse.mpr ⟨length, denotes⟩]
  · intro spans
    obtain ⟨length, denotes⟩ := inverse.mp (Eq.refl (written x))
    exact ⟨written x, after, ⟨length, spans⟩, denotes, rfl⟩

theorem u8_ok {b : UInt8} : u8 c = .ok (b, after) ↔ c.Spans [b] after := by
  have inverse : ∀ {bs : List UInt8} {b : UInt8},
      bs = [b] ↔ bs.length = 1 ∧ b = UInt8.ofNat (bigEndian bs) := by
    intro bs b
    constructor
    · rintro rfl
      simp [bigEndian]
    · rintro ⟨one, rfl⟩
      obtain ⟨a, rfl⟩ := List.length_eq_one_iff.mp one
      simp [bigEndian]
  exact number_ok inverse

theorem u16_ok {n : UInt16} : u16 c = .ok (n, after) ↔ c.Spans (bytes16 n) after :=
  number_ok bytes16_iff

theorem u32_ok {n : UInt32} : u32 c = .ok (n, after) ↔ c.Spans (bytes32 n) after :=
  number_ok bytes32_iff

theorem skip_ok {n : Nat} {u : Unit} :
    skip n c = .ok (u, after) ↔ ∃ bs : List UInt8, bs.length = n ∧ c.Spans bs after := by
  simp only [skip, bind_ok, pure_ok, bytes_ok]
  constructor
  · rintro ⟨bs, _, spans, _, rfl⟩
    exact ⟨bs, spans⟩
  · rintro ⟨bs, spans⟩
    exact ⟨bs, after, spans, trivial, rfl⟩

end Reader
end PluginLoader
