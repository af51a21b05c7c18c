import Mathlib

/-!
# Custody of allocated objects

Objects are allocated for an owner at addresses that are never given out again.
Every owner holds some of the objects that are live and were allocated for it
after a certain point.  Allocating for an owner and freeing what an owner holds
keep what all others hold.
-/

namespace Rtes.Tokens

universe u

variable {ω : Type u}

/-- The owner each live object was allocated for, and the next address. -/
structure Store (ω : Type u) where
  live : ℕ → Option ω
  next : ℕ

namespace Store

/-- Allocate the next address for an owner. -/
def alloc (store : Store ω) (owner : ω) : Store ω where
  live := Function.update store.live store.next (some owner)
  next := store.next + 1

/-- Free an object.  No object stands for a null pointer. -/
def free (store : Store ω) : Option ℕ → Store ω
  | none => store
  | some addr => { store with live := Function.update store.live addr none }

/-- Free objects in turn. -/
def freeAll (store : Store ω) (objects : List (Option ℕ)) : Store ω :=
  objects.foldl free store

/-- An object is live, and was allocated for the owner at or after a point. -/
def Owns (store : Store ω) (since : ℕ) (owner : ω) (addr : ℕ) : Prop :=
  store.live addr = some owner ∧ since ≤ addr

/-- Every object that is freed in turn is owned when it is freed. -/
def FreesOwned (store : Store ω) (since : ℕ) (owner : ω) : List (Option ℕ) → Prop
  | [] => True
  | object :: rest => (∀ addr ∈ object, store.Owns since owner addr) ∧
      (store.free object).FreesOwned since owner rest

variable {store : Store ω} {since addr : ℕ} {owner other : ω}

/-- An object stays owned when another one is freed. -/
theorem Owns.free {object : Option ℕ} (owns : store.Owns since owner addr)
    (different : object ≠ some addr) : (store.free object).Owns since owner addr := by
  cases object with
  | none => exact owns
  | some freed =>
      refine ⟨?_, owns.2⟩
      rw [← owns.1]
      exact Function.update_of_ne (fun same => different (by rw [same])) _ _

/-- An object has one owner. -/
theorem Owns.owner_eq {since' : ℕ} (owns : store.Owns since owner addr)
    (others : store.Owns since' other addr) : owner = other := by
  rw [← Option.some.injEq, ← owns.1, others.1]

end Store

variable {store : Store ω} {since : ω → ℕ} {held held' : ω → List (Option ℕ)} {owner : ω}
  {object : Option ℕ} {objects rest : List (Option ℕ)}

/-- An owner holds distinct objects that it owns. -/
structure Holds (store : Store ω) (since : ℕ) (owner : ω) (objects : List (Option ℕ)) : Prop where
  owned : ∀ object ∈ objects, ∃ addr, object = some addr ∧ store.Owns since owner addr
  nodup : objects.Nodup

namespace Holds

variable {point : ℕ}

theorem nil (store : Store ω) (point : ℕ) (owner : ω) : Holds store point owner [] :=
  ⟨by simp, .nil⟩

/-- Part of what is held is held. -/
theorem subperm (holds : Holds store point owner objects) (part : rest.Subperm objects) :
    Holds store point owner rest where
  owned := fun object member => holds.owned object (part.subset member)
  nodup := by
    obtain ⟨listed, same, sub⟩ := part
    exact same.nodup_iff.mp (holds.nodup.sublist sub)

/-- The rest stays held when one object is freed. -/
theorem free (holds : Holds store point owner (object :: rest)) :
    Holds (store.free object) point owner rest where
  owned := by
    intro kept member
    obtain ⟨addr, rfl, owns⟩ := holds.owned kept (List.mem_cons_of_mem _ member)
    refine ⟨addr, rfl, owns.free ?_⟩
    rintro rfl
    exact (List.nodup_cons.mp holds.nodup).1 member
  nodup := (List.nodup_cons.mp holds.nodup).2

/-- What an owner holds can be freed in turn. -/
theorem freesOwned (holds : Holds store point owner objects) :
    store.FreesOwned point owner objects := by
  induction objects generalizing store with
  | nil => trivial
  | cons object rest ih =>
      refine ⟨?_, ih holds.free⟩
      intro addr same
      obtain ⟨addr', isObject, owns⟩ := holds.owned object List.mem_cons_self
      rw [isObject, Option.mem_some_iff] at same
      rwa [← same]

end Holds

/-- Every owner holds its objects, and all addresses given out are below the next
one. -/
structure Custody (store : Store ω) (since : ω → ℕ) (held : ω → List (Option ℕ)) : Prop where
  bounded : ∀ addr, store.live addr ≠ none → addr < store.next
  since_le : ∀ owner, since owner ≤ store.next
  holds : ∀ owner, Holds store (since owner) owner (held owner)

namespace Custody

/-- Owners may hold less. -/
theorem mono (custody : Custody store since held)
    (parts : ∀ owner, (held' owner).Subperm (held owner)) : Custody store since held' where
  bounded := custody.bounded
  since_le := custody.since_le
  holds := fun owner => (custody.holds owner).subperm (parts owner)

variable [DecidableEq ω]

/-- An owner that holds nothing starts again. -/
theorem restart (custody : Custody store since held) (nothing : held owner = []) :
    Custody store (Function.update since owner store.next) held where
  bounded := custody.bounded
  since_le := by
    intro other
    rcases eq_or_ne other owner with rfl | different
    · rw [Function.update_self]
    · rw [Function.update_of_ne different]
      exact custody.since_le other
  holds := by
    intro other
    rcases eq_or_ne other owner with rfl | different
    · rw [nothing]
      exact .nil ..
    · rw [Function.update_of_ne different]
      exact custody.holds other

/-! The operations of one owner change what it holds, and nothing else. -/

theorem own (custody : Custody store since (Function.update held owner objects)) :
    Holds store (since owner) owner objects := by
  have holds := custody.holds owner
  rwa [Function.update_self] at holds

theorem others (custody : Custody store since (Function.update held owner objects)) {other : ω}
    (different : other ≠ owner) : Holds store (since other) other (held other) := by
  have holds := custody.holds other
  rwa [Function.update_of_ne different] at holds

theorem of_own {store' : Store ω}
    (bounded : ∀ addr, store'.live addr ≠ none → addr < store'.next)
    (since_le : ∀ owner, since owner ≤ store'.next)
    (own : Holds store' (since owner) owner objects)
    (others : ∀ other, other ≠ owner → Holds store' (since other) other (held other)) :
    Custody store' since (Function.update held owner objects) where
  bounded := bounded
  since_le := since_le
  holds := by
    intro other
    rcases eq_or_ne other owner with rfl | different
    · rwa [Function.update_self]
    · rw [Function.update_of_ne different]
      exact others other different

/-- An owner may hold less. -/
theorem part (custody : Custody store since (Function.update held owner objects))
    (part : rest.Subperm objects) : Custody store since (Function.update held owner rest) :=
  of_own custody.bounded custody.since_le (custody.own.subperm part) fun _ => custody.others

/-- An object allocated for an owner is held by it. -/
theorem alloc (custody : Custody store since (Function.update held owner objects)) :
    Custody (store.alloc owner) since
      (Function.update held owner (some store.next :: objects)) := by
  -- An object that was owned before is not the one allocated.
  have older : ∀ {point holder addr}, store.Owns point holder addr → addr ≠ store.next ∧
      (store.alloc owner).Owns point holder addr := by
    intro point holder addr owns
    have different : addr ≠ store.next := (custody.bounded addr (by simp [owns.1])).ne
    refine ⟨different, ?_, owns.2⟩
    rw [← owns.1]
    exact Function.update_of_ne different _ _
  have kept : ∀ {point holder listed}, Holds store point holder listed →
      Holds (store.alloc owner) point holder listed := by
    intro point holder listed holds
    refine ⟨?_, holds.nodup⟩
    intro object member
    obtain ⟨addr, same, owns⟩ := holds.owned object member
    exact ⟨addr, same, (older owns).2⟩
  refine of_own ?_ ?_ ⟨?_, List.nodup_cons.mpr ⟨?_, custody.own.nodup⟩⟩ ?_
  · intro addr live
    rcases eq_or_ne addr store.next with rfl | different
    · exact Nat.lt_succ_self _
    · have before : store.live addr ≠ none := by
        rwa [← Function.update_of_ne different (some owner) store.live]
      exact (custody.bounded addr before).trans (Nat.lt_succ_self _)
  · exact fun holder => (custody.since_le holder).trans (Nat.le_succ _)
  · intro object member
    rcases List.mem_cons.mp member with rfl | behind
    · exact ⟨store.next, rfl, Function.update_self .., custody.since_le owner⟩
    · exact (kept custody.own).owned object behind
  · intro member
    obtain ⟨addr, same, owns⟩ := custody.own.owned _ member
    exact (older owns).1 (Option.some.inj same).symm
  · exact fun other different => kept (custody.others different)

/-- An owner frees an object it holds. -/
theorem free (custody : Custody store since (Function.update held owner objects))
    (part : (object :: rest).Subperm objects) :
    Custody (store.free object) since (Function.update held owner rest) := by
  have own := custody.own.subperm part
  obtain ⟨addr, rfl, owns⟩ := own.owned object List.mem_cons_self
  refine of_own ?_ custody.since_le own.free ?_
  · intro other live
    apply custody.bounded
    intro dead
    apply live
    rcases eq_or_ne other addr with rfl | different
    · exact Function.update_self ..
    · rw [← dead]
      exact Function.update_of_ne different _ _
  · intro holder different
    refine ⟨?_, (custody.others different).nodup⟩
    intro kept member
    obtain ⟨other, rfl, others⟩ := (custody.others different).owned kept member
    refine ⟨other, rfl, others.free ?_⟩
    rintro same
    cases same
    exact different (others.owner_eq owns)

/-- An owner frees objects it holds in turn. -/
theorem freeAll {freed : List (Option ℕ)}
    (custody : Custody store since (Function.update held owner objects))
    (part : (freed ++ rest).Subperm objects) :
    Custody (store.freeAll freed) since (Function.update held owner rest) := by
  induction freed generalizing store objects with
  | nil => exact custody.part part
  | cons object freed ih =>
      rw [List.cons_append] at part
      exact ih (custody.free part) (.refl _)

end Custody

end Rtes.Tokens
