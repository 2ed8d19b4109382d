import Mathlib.Data.List.Basic

/-!
# Keys that are remembered until they expire

A store remembers keys, each until a time of its own. Consuming a key forgets the keys whose time
has come and accepts the key unless it is still remembered or there is no room for it. `Remembers`
is the invariant: an accepted key is in the store until its time has come, so a key that is accepted
again has expired: `expired_of_accepted`.
-/
namespace NancyMan

abbrev ExpiringKeys (K : Type) := List (K × Int)

namespace ExpiringKeys

variable {K : Type}

def live (store : ExpiringKeys K) (now : Int) : ExpiringKeys K :=
  store.filter fun entry => decide (now < entry.2)

section Consuming

variable [DecidableEq K]

def holds (store : ExpiringKeys K) (key : K) (now : Int) : Bool :=
  (store.live now).any fun entry => decide (entry.1 = key)

/-- Consume a key, which is accepted unless it is remembered or no room is left. -/
def consume (room : Nat → Bool) (store : ExpiringKeys K) (key : K) (expiresAt now : Int) :
    ExpiringKeys K × Bool :=
  if store.holds key now || !room (store.live now).length then (store.live now, false)
  else (store.live now ++ [(key, expiresAt)], true)

end Consuming

def Remembers (store : ExpiringKeys K) (now : Int) (accepted : List (K × Int)) : Prop :=
  ∀ entry ∈ accepted, entry.2 ≤ now ∨ entry ∈ store

theorem remembers_nil (store : ExpiringKeys K) (now : Int) : store.Remembers now [] := by
  intro entry member
  cases member

theorem mem_live {store : ExpiringKeys K} {now : Int} {entry : K × Int} :
    entry ∈ store.live now ↔ entry ∈ store ∧ now < entry.2 := by
  rw [live, List.mem_filter, decide_eq_true_eq]

variable {store : ExpiringKeys K} {before now : Int} {accepted : List (K × Int)}

/-- Time that passes takes nothing from the store that has not expired. -/
theorem Remembers.live (remembers : store.Remembers before accepted) (later : before ≤ now) :
    (store.live now).Remembers now accepted := by
  intro entry member
  rcases remembers entry member with expired | stored
  · exact .inl (by omega)
  · by_cases expired : entry.2 ≤ now
    · exact .inl expired
    · exact .inr (mem_live.mpr ⟨stored, by omega⟩)

theorem Remembers.later (remembers : store.Remembers before accepted) (later : before ≤ now) :
    store.Remembers now accepted := by
  intro entry member
  rcases remembers entry member with expired | stored
  · exact .inl (by omega)
  · exact .inr stored

variable [DecidableEq K] {room : Nat → Bool} {key : K} {expiresAt : Int}

/-- A key is held exactly when it is remembered with a time to come. -/
theorem holds_iff : store.holds key now ↔ ∃ time, (key, time) ∈ store ∧ now < time := by
  unfold holds
  rw [List.any_eq_true]
  constructor
  · rintro ⟨entry, member, same⟩
    obtain ⟨stored, ahead⟩ := mem_live.mp member
    obtain rfl := of_decide_eq_true same
    exact ⟨entry.2, stored, ahead⟩
  · rintro ⟨time, stored, ahead⟩
    exact ⟨(key, time), mem_live.mpr ⟨stored, ahead⟩, decide_eq_true rfl⟩

theorem consume_accepts_iff :
    (consume room store key expiresAt now).2 ↔
      store.holds key now = false ∧ room (store.live now).length := by
  unfold consume
  cases held : store.holds key now <;> cases free : room (store.live now).length <;> simp

theorem consume_store :
    (consume room store key expiresAt now).1 =
      if (consume room store key expiresAt now).2 then store.live now ++ [(key, expiresAt)]
      else store.live now := by
  unfold consume
  split <;> rfl

/-- The accepted keys are remembered after another is consumed. -/
theorem Remembers.consume (remembers : store.Remembers before accepted) (later : before ≤ now) :
    (consume room store key expiresAt now).1.Remembers now
      (if (consume room store key expiresAt now).2 then accepted ++ [(key, expiresAt)]
      else accepted) := by
  have kept := remembers.live later
  rw [consume_store]
  split
  · intro entry member
    rcases List.mem_append.mp member with earlier | added
    · exact (kept entry earlier).imp_right (List.mem_append_left _)
    · exact .inr (List.mem_append_right _ added)
  · exact kept

/-- A key that is not held any more has expired whenever it was accepted. -/
theorem Remembers.expired (remembers : store.Remembers before accepted)
    (free : store.holds key now = false) (later : before ≤ now) {time : Int}
    (known : (key, time) ∈ accepted) : time ≤ now := by
  rcases remembers (key, time) known with expired | stored
  · have past : time ≤ before := expired
    omega
  · by_contra ahead
    have held : store.holds key now := holds_iff.mpr ⟨time, stored, by omega⟩
    rw [free] at held
    cases held

end ExpiringKeys

end NancyMan
