import Mathlib.Data.List.Dedup
import Mathlib.Data.List.Induction
import PluginLoader.Configuration
import PluginLoader.Proofs.Resolution.Tables

/-! The host that a configuration describes. It is made of definitions, one after another, of which
the last one of a name counts; the configured ones come after the standard ones. -/
namespace PluginLoader

abbrev TypeDefinition := String × Option String × AccessFlags

namespace HostTypes
variable {host : HostTypes} {definitions : List TypeDefinition} {n : String} {id : ScopeId}

/-- What a host tells of a type that it has by a definition. -/
def descriptorOf (definition : TypeDefinition) : TypeDescriptor :=
  { name := definition.1, superName := definition.2.1, interfaces := [],
    access := definition.2.2, origin := .host }

/-- The definition of a name that no later one hides. -/
def lastOf? (definitions : List TypeDefinition) (n : String) : Option TypeDefinition :=
  definitions.reverse.find? (·.1 = n)

def descriptor? (host : HostTypes) (n : String) : Option TypeDescriptor :=
  (host.find? n).map (·.descriptor)

theorem ofDefinitions_concat (definition : TypeDefinition) :
    ofDefinitions (definitions ++ [definition]) =
      (ofDefinitions definitions).define definition.1 definition.2.1 definition.2.2 :=
  List.foldl_concat ..

theorem lookup_filter_of_ne {β : Type} {table : List (String × β)} {m : String} (other : n ≠ m) :
    (table.filter (·.1 ≠ m)).lookup n = table.lookup n := by
  induction table with
  | nil => rfl
  | cons entry table ih =>
    obtain ⟨key, value⟩ := entry
    by_cases hidden : key = m
    · rw [List.filter_cons_of_neg (by simp [hidden]), ih, List.lookup_cons,
        beq_eq_false_iff_ne.mpr (hidden ▸ other)]
    · rw [List.filter_cons_of_pos (by simp [hidden]), List.lookup_cons, List.lookup_cons, ih]

/-- A definition says what its own name stands for and leaves every other name alone. -/
theorem descriptor_define (name : String) (superName : Option String) (access : AccessFlags) :
    (host.define name superName access).descriptor? n =
      if n = name then some (descriptorOf (name, superName, access)) else host.descriptor? n := by
  unfold descriptor? find? define
  rw [List.lookup_cons]
  by_cases own : n = name
  · simp [own, descriptorOf]
  · rw [beq_eq_false_iff_ne.mpr own, lookup_filter_of_ne own, if_neg own]

theorem descriptor_ofDefinitions :
    (ofDefinitions definitions).descriptor? n = (lastOf? definitions n).map descriptorOf := by
  induction definitions using List.reverseRecOn with
  | nil => rfl
  | append_singleton definitions definition ih =>
    rw [ofDefinitions_concat, descriptor_define, ih]
    unfold lastOf?
    rw [List.reverse_concat, List.find?_cons]
    by_cases own : n = definition.1
    · simp [own]
    · simp [own, Ne.symm own]

/-! ### Names -/

def names (host : HostTypes) : List String := host.table.map (·.1)

theorem mem_names_define {name : String} {superName : Option String} {access : AccessFlags} :
    n ∈ (host.define name superName access).names ↔ n = name ∨ n ∈ host.names := by
  unfold names define
  by_cases own : n = name <;> simp [own]

theorem nodup_names_define (nodup : host.names.Nodup) (name : String)
    (superName : Option String) (access : AccessFlags) :
    (host.define name superName access).names.Nodup := by
  unfold names define at *
  rw [List.map_cons, List.nodup_cons]
  refine ⟨by simp, nodup.sublist (List.filter_sublist.map _)⟩

theorem mem_names_ofDefinitions :
    n ∈ (ofDefinitions definitions).names ↔ n ∈ definitions.map (·.1) := by
  induction definitions using List.reverseRecOn with
  | nil => rfl
  | append_singleton definitions definition ih =>
    rw [ofDefinitions_concat, mem_names_define, ih, List.map_append, List.mem_append, or_comm]
    simp

theorem nodup_names_ofDefinitions : (ofDefinitions definitions).names.Nodup := by
  induction definitions using List.reverseRecOn with
  | nil => exact List.nodup_nil
  | append_singleton definitions definition ih =>
    rw [ofDefinitions_concat]
    exact nodup_names_define ih ..

theorem size_ofDefinitions :
    (ofDefinitions definitions).size = (definitions.map (·.1)).dedup.length := by
  have same : (ofDefinitions definitions).names.Perm (definitions.map (·.1)).dedup :=
    (List.perm_ext_iff_of_nodup nodup_names_ofDefinitions (List.nodup_dedup _)).mpr fun n =>
      mem_names_ofDefinitions.trans List.mem_dedup.symm
  rw [← same.length_eq, names, List.length_map, size]

/-! ### Answers -/

theorem resolve_descriptor : (host.resolve id n).map (·.descriptor) =
    (host.descriptor? n).elim (.error (.typeNotFound n)) .ok := by
  unfold resolve descriptor?
  cases host.find? n <;> rfl

theorem resolve_of_descriptor {descriptor : TypeDescriptor}
    (there : host.descriptor? n = some descriptor) :
    ∃ handle, host.resolve id n = .ok handle ∧ handle.owner = id ∧
      handle.descriptor = descriptor := by
  unfold resolve descriptor? at *
  cases found : host.find? n with
  | none => rw [found] at there; cases there
  | some entry =>
    rw [found] at there
    exact ⟨_, rfl, rfl, Option.some.inj there⟩

theorem not_found_of_descriptor (missing : host.descriptor? n = none) :
    host.resolve id n = .error (.typeNotFound n) := by
  unfold resolve descriptor? at *
  rw [Option.map_eq_none_iff.mp missing]

theorem contains_iff : host.contains n = true ↔ ∃ handle, host.resolve id n = .ok handle := by
  unfold contains resolve
  cases host.find? n <;> simp

end HostTypes

/-- A handle of a host is valid wherever the host is a scope. -/
theorem World.isValid_of_host {w : World} {types : HostTypes} {handle : TypeHandle}
    (at_owner : Scope.get? w.scopes handle.owner = some (.host types)) :
    w.isValid handle = true := by
  rw [isValid, at_owner]
  rfl

namespace Configuration
variable {c : Configuration} {n : String}

/-- What is configured for a name; nothing behind it in the list has the name. -/
def lastType? (types : List ConfiguredType) (n : String) : Option ConfiguredType :=
  types.reverse.find? (·.name = n)

def definition (type : ConfiguredType) : TypeDefinition :=
  (type.name, type.superName, HostTypes.plainClass)

/-- All definitions of the host: the standard ones if it has them, and then the configured ones. -/
def definitions (c : Configuration) : List TypeDefinition :=
  (if c.standardTypes then HostTypes.standardTypes else []) ++ c.types.map definition

theorem hostTypes_eq : c.hostTypes = HostTypes.ofDefinitions c.definitions := by
  unfold hostTypes definitions HostTypes.ofDefinitions
  rw [List.foldl_append, List.foldl_map]
  cases c.standardTypes <;> rfl

theorem exists_lastType {types : List ConfiguredType} (there : n ∈ types.map (·.name)) :
    ∃ type, lastType? types n = some type := by
  obtain ⟨type, member, named⟩ := List.mem_map.mp there
  exact Option.isSome_iff_exists.mp
    (List.find?_isSome.mpr ⟨type, List.mem_reverse.mpr member, by simp [named]⟩)

theorem name_of_lastType {types : List ConfiguredType} {type : ConfiguredType}
    (last : lastType? types n = some type) : type.name = n := by
  have named := List.find?_some last
  exact of_decide_eq_true named

theorem lastType_eq_none {types : List ConfiguredType} (missing : n ∉ types.map (·.name)) :
    lastType? types n = none := by
  refine List.find?_eq_none.mpr fun type member => ?_
  simp only [decide_eq_true_eq]
  rintro rfl
  exact missing (List.mem_map_of_mem (List.mem_reverse.mp member))

/-- The configured definition of a name hides the standard one. -/
theorem lastOf_definitions : HostTypes.lastOf? c.definitions n =
    ((lastType? c.types n).map definition).or
      (if c.standardTypes then HostTypes.lastOf? HostTypes.standardTypes n else none) := by
  unfold HostTypes.lastOf? definitions lastType?
  rw [List.reverse_append, List.find?_append, ← List.map_reverse, List.find?_map]
  cases c.standardTypes <;> rfl

theorem descriptor_hostTypes : c.hostTypes.descriptor? n =
    ((lastType? c.types n).map fun type => HostTypes.descriptorOf (definition type)).or
      (if c.standardTypes then HostTypes.standard.descriptor? n else none) := by
  have standard : HostTypes.standard = HostTypes.ofDefinitions HostTypes.standardTypes := rfl
  rw [hostTypes_eq, HostTypes.descriptor_ofDefinitions, lastOf_definitions, standard,
    HostTypes.descriptor_ofDefinitions]
  cases lastType? c.types n with
  | some type => rfl
  | none => cases c.standardTypes <;> rfl

/-- The names that a configuration defines, as often as it does. -/
def definedNames (c : Configuration) : List String :=
  (if c.standardTypes then HostTypes.standardTypes.map (·.1) else []) ++ c.types.map (·.name)

theorem definedNames_eq : c.definitions.map (·.1) = c.definedNames := by
  unfold definitions definedNames
  rw [List.map_append, List.map_map]
  cases c.standardTypes <;> rfl

/-- In a configured host the last definition of a name counts. A configured name stands for a public
class with the supertype of its last definition, also where it is a standard one; a name that is not
configured stands for what it stands for in the standard host, or for nothing without that. Names
that stand for something are exactly those that the host contains, each counted once. The order of
definitions does not show, as long as every name has the same last one. -/
theorem last_definition_counts (c : Configuration) (id : ScopeId) :
    (∀ n ∈ c.types.map (·.name), ∃ type handle, lastType? c.types n = some type ∧
      c.hostTypes.resolve id n = .ok handle ∧ handle.owner = id ∧
      handle.descriptor = ⟨n, type.superName, [], .union .public .super, .host⟩ ∧
      ∀ w : World, Scope.get? w.scopes id = some (.host c.hostTypes) →
        w.isValid handle = true) ∧
    (∀ n ∉ c.types.map (·.name), if c.standardTypes = true then
        (c.hostTypes.resolve id n).map (·.descriptor) =
          (HostTypes.standard.resolve id n).map (·.descriptor)
      else c.hostTypes.resolve id n = .error (.typeNotFound n)) ∧
    (∀ n, c.hostTypes.contains n = true ↔ ∃ handle, c.hostTypes.resolve id n = .ok handle) ∧
    c.hostTypes.size = c.definedNames.dedup.length ∧
    (c.hostTypes.isEmpty = true ↔ c.hostTypes.size = 0) ∧
    ∀ c' : Configuration, c'.standardTypes = c.standardTypes →
      (∀ n, lastType? c'.types n = lastType? c.types n) →
      ∀ n, (c'.hostTypes.resolve id n).map (·.descriptor) =
        (c.hostTypes.resolve id n).map (·.descriptor) := by
  refine ⟨?_, ?_, fun n => HostTypes.contains_iff, ?_, ?_, ?_⟩
  · intro n there
    obtain ⟨type, last⟩ := exists_lastType there
    have described : c.hostTypes.descriptor? n =
        some (HostTypes.descriptorOf (definition type)) := by
      rw [descriptor_hostTypes, last]
      rfl
    obtain ⟨handle, found, owner, descriptor⟩ := HostTypes.resolve_of_descriptor described
    refine ⟨type, handle, last, found, owner, ?_, ?_⟩
    · rw [descriptor, ← name_of_lastType last]
      rfl
    · intro w at_id
      exact World.isValid_of_host (owner ▸ at_id)
  · intro n missing
    have described := descriptor_hostTypes (c := c) (n := n)
    rw [lastType_eq_none missing, Option.map_none, Option.none_or] at described
    split
    · next standard =>
      rw [HostTypes.resolve_descriptor, HostTypes.resolve_descriptor, described, if_pos standard]
    · next bare =>
      rw [if_neg bare] at described
      exact HostTypes.not_found_of_descriptor described
  · rw [hostTypes_eq, HostTypes.size_ofDefinitions, definedNames_eq]
  · unfold HostTypes.isEmpty HostTypes.size
    simp
  · intro c' standard last n
    rw [HostTypes.resolve_descriptor, HostTypes.resolve_descriptor, descriptor_hostTypes,
      descriptor_hostTypes, standard, last]

/-- Standard names may be taken, and taken again. -/
example : (({ types := [⟨"java.lang.Long", some "A"⟩, ⟨"B", none⟩, ⟨"java.lang.Long", some "B"⟩] } :
    Configuration).hostTypes.descriptor? "java.lang.Long").map (·.superName) = some (some "B") := by
  decide +kernel

end Configuration
end PluginLoader
