import PluginLoader.Proofs.Resolution.Tables

/-! Finality of answers over whole runs. An answer that no unreadable archive is to blame for is
repeated for as long as no context on the chain is closed, and after that is the same handle or the
report of a closed context. So one scope never gives two handles for one name, nor one for two. -/
namespace PluginLoader

namespace World

def Settled (w : World) (id : ScopeId) (name : String) (answer : Except LoadError TypeHandle) :
    Prop :=
  Scope.Settled w.scopes id name answer

variable {w after : World} {id : ScopeId} {name : String} {answer : Except LoadError TypeHandle}

theorem Settled.resolve (settled : w.Settled id name answer) : w.resolve id name = (answer, w) := by
  unfold World.resolve
  rw [Scope.Settled.resolve settled w.files]

theorem resolve_settles (final : Scope.Definitive (w.resolve id name).1) :
    (w.resolve id name).2.Settled id name (w.resolve id name).1 :=
  Scope.resolve_settles final

theorem definitive_ok (handle : TypeHandle) : Scope.Definitive (.ok handle) := by
  intro e failed
  cases failed

theorem resolve_ok_settles {handle : TypeHandle} (found : w.resolve id name = (.ok handle, after)) :
    after.Settled id name (.ok handle) := by
  have settles : Scope.Definitive (w.resolve id name).1 → _ := resolve_settles
  rw [found] at settles
  exact settles (definitive_ok handle)

theorem Settled.lookups {asker : ScopeId} (settled : w.Settled id name answer)
    (lookups : Lookups asker w after) : after.Settled id name answer := by
  apply lookups.keep (P := fun later => later.Settled id name answer) _ settled
  intro later asked settled
  exact Scope.Settled.lookup settled later.files asker asked

theorem Settled.perform {e : Event} (settled : w.Settled id name answer)
    (there : id < w.scopes.length) (spared : ∀ target ∈ w.chain id, e ≠ .close target) :
    (w.perform e).Settled id name answer := by
  generalize happens : w.perform e = after
  cases perform_change happens with
  | add => exact .older _ (Nat.ne_of_lt there) settled
  | lookups _ lookups => exact settled.lookups lookups
  | close target => exact Scope.Settled.close_outside settled fun inside => spared _ inside rfl
  | change files => exact settled

theorem Settled.perform_close {target : ScopeId} (settled : w.Settled id name answer)
    (inside : target ∈ w.chain id) :
    ∃ now, (w.perform (.close target)).Settled id name now ∧ Scope.Fades answer now :=
  Scope.Settled.close_inside settled inside

theorem Settled.run {events : List Event} (settled : w.Settled id name answer)
    (there : id < w.scopes.length)
    (spared : ∀ target ∈ w.chain id, Event.close target ∉ events) :
    (w.run events).Settled id name answer := by
  induction events generalizing w with
  | nil => exact settled
  | cons e rest ih =>
    apply ih
    · exact settled.perform there fun target inside same =>
        spared target inside (same ▸ List.mem_cons_self)
    · exact Nat.lt_of_lt_of_le there (w.length_perform e)
    · intro target inside member
      rw [chain_perform there] at inside
      exact spared target inside (List.mem_cons_of_mem _ member)

theorem fades_trans {answer now later : Except LoadError TypeHandle}
    (first : Scope.Fades answer now) (second : now = later ∨ Scope.Fades now later) :
    Scope.Fades answer later := by
  rcases second with rfl | ⟨handle, rfl, rfl⟩ | closed
  · exact first
  · exact first
  · exact .inr closed

/-- After any run a settled answer is still settled, or has faded. -/
theorem Settled.run_fades (settled : w.Settled id name answer) (there : id < w.scopes.length)
    (events : List Event) :
    ∃ now, (w.run events).Settled id name now ∧ (answer = now ∨ Scope.Fades answer now) := by
  induction events generalizing w answer with
  | nil => exact ⟨answer, settled, .inl rfl⟩
  | cons e rest ih =>
    have still := Nat.lt_of_lt_of_le there (w.length_perform e)
    by_cases closing : ∃ target ∈ w.chain id, e = .close target
    · obtain ⟨target, inside, rfl⟩ := closing
      obtain ⟨now, closed, fades⟩ := settled.perform_close inside
      obtain ⟨later, ends, relation⟩ := ih closed still
      exact ⟨later, ends, .inr (fades_trans fades relation)⟩
    · push Not at closing
      exact ih (settled.perform there closing) still

theorem Settled.run_closed (settled : w.Settled id name answer) (there : id < w.scopes.length)
    (events : List Event)
    (closing : ∃ target ∈ w.chain id, Event.close target ∈ events) :
    ∃ now, (w.run events).Settled id name now ∧ Scope.Fades answer now := by
  obtain ⟨target, inside, member⟩ := closing
  -- up to the closing the answer may have faded, at the closing it does, and it stays so
  obtain ⟨first, second, rfl⟩ := List.append_of_mem member
  obtain ⟨blueprints, same⟩ := w.run_blueprint first
  obtain ⟨middle, until_then, relation⟩ := settled.run_fades there first
  rw [← chain_of_blueprint same there] at inside
  obtain ⟨now, closed, fades⟩ := until_then.perform_close inside
  have still : id < ((w.run first).perform (.close target)).scopes.length :=
    Nat.lt_of_lt_of_le (Nat.lt_of_lt_of_le there (length_le_of_blueprint same)) (length_perform ..)
  obtain ⟨last, ends, later⟩ := closed.run_fades still second
  rw [run_append]
  refine ⟨last, ends, ?_⟩
  have whole := fades_trans fades later
  rcases relation with rfl | earlier
  · exact whole
  · exact fades_trans earlier (.inr whole)

/-- Of two handles that one scope gives at different times, the identities agree exactly if the
names do. -/
theorem same_iff_name (files : FileSystem) (before between : List Event) {other : String}
    {a b : TypeHandle} (first : (((start files).run before).resolve id name).1 = .ok a)
    (second : (((((start files).run before).resolve id name).2.run between).resolve id other).1 =
      .ok b) : a.same b = true ↔ a.name = b.name := by
  generalize early : (start files).run before = w at first second
  generalize late : (w.resolve id name).2.run between = later at second
  have numbered : Scope.Each Scope.Numbered w.scopes := early ▸ numbered_run files before
  have numberedLater : Scope.Each Scope.Numbered later.scopes := by
    have whole := numbered_run files (before ++ .resolve id name :: between)
    rwa [run_append, early, run, perform, late] at whole
  have numberedLast : Scope.Each Scope.Numbered (later.resolve id other).2.scopes := by
    have whole :=
      numbered_run files (before ++ .resolve id name :: (between ++ [.resolve id other]))
    rwa [run_append, early, run, perform, run_append, late] at whole
  obtain ⟨named, holds⟩ := resolve_holds numbered first
  obtain ⟨otherNamed, otherHolds⟩ := resolve_holds numberedLater second
  constructor
  · intro same
    -- a number tells types apart within one world, so both handles are looked for in the last one
    have issued : (((w.resolve id name).2.run between).perform (.resolve id other)).Issued a :=
      Issued.perform (holds.issued.run between) (.resolve id other)
    rw [late] at issued
    rw [issued_unique numberedLast issued otherHolds same]
  · intro names
    rw [named, otherNamed] at names
    subst names
    have settled := resolve_ok_settles (Prod.ext first rfl)
    obtain ⟨now, kept, relation⟩ := settled.run_fades (Scope.Settled.there settled) between
    rw [late] at kept
    rw [kept.resolve] at second
    have equal : a = b := by
      rcases relation with rfl | ⟨handle, given, rfl⟩ | ⟨label, rfl⟩
      · exact Except.ok.inj second
      · exact (Except.ok.inj given).trans (Except.ok.inj second)
      · cases second
    subst equal
    simp [TypeHandle.same]

/-- Answers are final. Of two lookups of one name in one scope, in any run, whatever happens to the
files between them: unless an archive could not be read the first time, the second gives what the
first gave if no context on the chain was closed between them, and else the same handle or the
report of an illegal state. Handles that one scope gives are the same if and only if their names
are. -/
theorem definitive_answer_final (files : FileSystem) (before between : List Event) (id : ScopeId)
    (name : String) (there : id < ((start files).run before).scopes.length)
    (final : ∀ location fault, (((start files).run before).resolve id name).1 ≠
      .error (.archiveRead location fault)) :
    let w := (start files).run before
    let later := (w.resolve id name).2.run between
    ((∀ target ∈ w.chain id, Event.close target ∉ between) →
      (later.resolve id name).1 = (w.resolve id name).1) ∧
    ((∃ target ∈ w.chain id, Event.close target ∈ between) →
      (∃ handle, (w.resolve id name).1 = .ok handle ∧ (later.resolve id name).1 = .ok handle) ∨
        ∃ e, (later.resolve id name).1 = .error e ∧ e.kind = .illegalState) ∧
    ∀ other a b, (w.resolve id name).1 = .ok a → (later.resolve id other).1 = .ok b →
      (a.same b = true ↔ a.name = b.name) := by
  intro w later
  have settled : (w.resolve id name).2.Settled id name (w.resolve id name).1 := by
    apply resolve_settles
    intro e failed
    cases e with
    | archiveRead location fault => exact absurd failed (final location fault)
    | _ => rfl
  obtain ⟨newer, same⟩ := w.perform_blueprint (.resolve id name)
  have stays : id < (w.resolve id name).2.scopes.length :=
    Nat.lt_of_lt_of_le there (length_le_of_blueprint same)
  have chain : (w.resolve id name).2.chain id = w.chain id := chain_of_blueprint same there
  refine ⟨?_, ?_, fun other a b first second => same_iff_name files before between first second⟩
  · intro spared
    have kept : later.Settled id name (w.resolve id name).1 :=
      settled.run stays (by rwa [chain])
    rw [kept.resolve]
  · intro closing
    obtain ⟨now, kept, fades⟩ := settled.run_closed stays between (by rwa [chain])
    rw [show later.resolve id name = (now, later) from kept.resolve]
    rcases fades with ⟨handle, first, rfl⟩ | ⟨label, rfl⟩
    · exact .inl ⟨handle, first, rfl⟩
    · exact .inr ⟨_, rfl, rfl⟩

/-- A type that was missing is missing still after its archive has appeared. -/
theorem missing_type_stays_missing :
    let w := (start ⟨[], []⟩).run [.addHost [], .addContext 0 "plugins" [⟨"/a.jar"⟩] .skip]
    (w.resolve 1 "A").1 = .error (.typeNotFound "A") ∧
      (((w.resolve 1 "A").2.run [.change filesOfA]).resolve 1 "A").1 =
        .error (.typeNotFound "A") := by
  intro w
  have unread : FileSystem.read ⟨[], []⟩ "/a.jar" = .error .missing :=
    FileSystem.read_jar ⟨[], []⟩ none rfl
  have searching : LoadingContext.search ⟨[], []⟩ .skip "A" [⟨"/a.jar"⟩] [.unopened] =
      (.ok none, [.unreadable]) := by
    simp only [LoadingContext.search, LoadingContext.reach, PluginSource.archive, Archive.open?,
      unread]
    rfl
  have named : TypeName.searchable "A" = true := by decide +kernel
  have missing : (w.resolve 1 "A").1 = .error (.typeNotFound "A") := by
    simp only [w, start, run, perform, addHost, addContext, addScope, World.resolve, Scope.resolve]
    simp only [LoadingContext.define, LoadingContext.make, List.map, searching, named]
    rfl
  have repeated := definitive_answer_final ⟨[], []⟩
    [.addHost [], .addContext 0 "plugins" [⟨"/a.jar"⟩] .skip] [.change filesOfA] 1 "A"
    (Nat.lt_succ_self 1) (by intro location fault failed; cases missing.symm.trans failed)
  refine ⟨missing, (repeated.1 ?_).trans missing⟩
  intro target _ closing
  cases List.mem_singleton.mp closing

end World
end PluginLoader
