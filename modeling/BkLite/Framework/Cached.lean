import BkLite.Framework.Rows

/-!
# A cached answer

A world is a database and one cache entry made from it. Several parties read it, fill the cache with
what they made of an earlier reading, change the database, and drop the entry because of a change. A
change is announced if its party will drop the entry; until then the entry may be stale.
-/

namespace Cached

variable {D T P : Type*}

/-- A database with a cache entry. -/
structure World (D T : Type*) where
  db : D
  cache : Option T

namespace World

def fill (w : World D T) (t : T) : World D T := { w with cache := some t }

def drop (w : World D T) : World D T := { w with cache := none }

def change (w : World D T) (d : D) : World D T := { w with db := d }

end World

def Sound (Right : D → T → Prop) (Due : P → Prop) (ps : List P) (w : World D T) : Prop :=
  ∀ t, w.cache = some t → Right w.db t ∨ ∃ p ∈ ps, Due p

variable {Right : D → T → Prop} {Due : P → Prop} {ps : List P} {w : World D T} {p p' : P} {i : ℕ}

theorem Sound.of_none (h : w.cache = none) : Sound Right Due ps w := by
  intro t h_t
  rw [h] at h_t
  cases h_t

theorem Sound.right (h : Sound Right Due ps w) (h_quiet : ∀ p ∈ ps, ¬Due p) {t : T}
    (h_t : w.cache = some t) : Right w.db t := by
  obtain h_right | ⟨p, h_p, h_due⟩ := h t h_t
  · exact h_right
  · exact absurd h_due (h_quiet p h_p)

/-! ### The moves of a party -/

theorem Sound.stay (h : Sound Right Due ps w) (h_p : ps[i]? = some p) (h_due : Due p → Due p') :
    Sound Right Due (ps.set i p') w :=
  fun t h_t => (h t h_t).imp_right (Rows.exists_set_of_exists h_p h_due)

theorem Sound.drop : Sound Right Due (ps.set i p') w.drop := .of_none rfl

theorem Sound.announce (h_p : ps[i]? = some p) (h_due : Due p') (d : D) :
    Sound Right Due (ps.set i p') (w.change d) :=
  fun _ _ => .inr (Rows.exists_set h_p h_due)

theorem exists_due_set_iff (h_p : ps[i]? = some p) (h : ¬Due p) (h' : ¬Due p') :
    (∃ q ∈ ps.set i p', Due q) ↔ ∃ q ∈ ps, Due q :=
  ⟨Rows.exists_of_exists_set h', Rows.exists_set_of_exists h_p fun h_due => absurd h_due h⟩

theorem sound_fill_iff (h_p : ps[i]? = some p) (h : ¬Due p) (h' : ¬Due p') (t : T) :
    Sound Right Due (ps.set i p') (w.fill t) ↔ Right w.db t ∨ ∃ q ∈ ps, Due q := by
  rw [← exists_due_set_iff h_p h h']
  constructor
  · intro h_sound
    exact h_sound t rfl
  · intro h_or t' h_t'
    obtain rfl : t = t' := Option.some.inj h_t'
    exact h_or

theorem sound_silent_iff (h_p : ps[i]? = some p) (h : ¬Due p) (h' : ¬Due p') (d : D) :
    Sound Right Due (ps.set i p') (w.change d) ↔
      ∀ t, w.cache = some t → Right d t ∨ ∃ q ∈ ps, Due q := by
  rw [← exists_due_set_iff h_p h h']
  rfl

end Cached
