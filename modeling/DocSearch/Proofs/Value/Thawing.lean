import DocSearch.Proofs.Value.Copies
import DocSearch.Value.Frozen

/-!
# What freezing and thawing leaves

A value that is frozen and thawed comes back with lists in place of its tuples and sets and is
otherwise what it was; a value that has only lists and dictionaries comes back as it was.
-/

namespace DocSearch.Value

mutual

/-- The value with a list in place of every sequence and a dictionary in place of every mapping. -/
def listed : Value → Value
  | .seq _ xs => .list (listedItems xs)
  | .map _ es => .dict (listedEntries es)
  | v => v

def listedItems : List Value → List Value
  | [] => []
  | x :: xs => listed x :: listedItems xs

def listedEntries : List (Value × Value) → List (Value × Value)
  | [] => []
  | (k, v) :: es => (k, listed v) :: listedEntries es

end

mutual

/-- All sequences are lists and all mappings dictionaries. -/
def isListed : Value → Bool
  | .seq k xs => k = .list && areListed xs
  | .map k es => k = .dict && areListedIn es
  | _ => true

def areListed : List Value → Bool
  | [] => true
  | x :: xs => isListed x && areListed xs

def areListedIn : List (Value × Value) → Bool
  | [] => true
  | (_, v) :: es => isListed v && areListedIn es

end

/-! ## Round trips -/

mutual

theorem thaw_freeze (v : Value) {w : Value} (h : v.freeze = .ok w) : w.thaw = v.listed := by
  cases v with
  | seq k xs =>
      obtain ⟨ys, hys, rfl⟩ := Except.map_eq_ok_iff.mp h
      cases k <;> simp [thaw, listed, SeqKind.frozen, thawItems_freezeItems xs hys]
  | map k es =>
      obtain ⟨fs, hfs, rfl⟩ := Except.map_eq_ok_iff.mp h
      simp [thaw, listed, thawEntries_freezeEntries es hfs]
  | _ =>
      obtain ⟨-, rfl⟩ := copy_eq_ok_iff.mp h
      rfl

theorem thawItems_freezeItems (xs : List Value) {ys : List Value}
    (h : freezeItems xs = .ok ys) : thawItems ys = listedItems xs := by
  cases xs with
  | nil =>
      obtain rfl := Except.ok.inj h
      rfl
  | cons x xs =>
      obtain ⟨y, hy, h⟩ := Except.bind_eq_ok_iff.mp h
      obtain ⟨zs, hzs, h⟩ := Except.bind_eq_ok_iff.mp h
      obtain rfl := Except.ok.inj h
      simp [thawItems, listedItems, thaw_freeze x hy, thawItems_freezeItems xs hzs]

theorem thawEntries_freezeEntries (es : List (Value × Value)) {fs : List (Value × Value)}
    (h : freezeEntries es = .ok fs) : thawEntries fs = listedEntries es := by
  cases es with
  | nil =>
      obtain rfl := Except.ok.inj h
      rfl
  | cons e es =>
      obtain ⟨k, v⟩ := e
      obtain ⟨w, hw, h⟩ := Except.bind_eq_ok_iff.mp h
      obtain ⟨gs, hgs, h⟩ := Except.bind_eq_ok_iff.mp h
      obtain rfl := Except.ok.inj h
      simp [thawEntries, listedEntries, thaw_freeze v hw, thawEntries_freezeEntries es hgs]

end

mutual

theorem exists_freeze (v : Value) (h : v.copyable = true) : ∃ w, v.freeze = .ok w := by
  cases v with
  | seq k xs =>
      obtain ⟨ys, hys⟩ := exists_freezeItems xs h
      exact ⟨_, by rw [freeze, hys]; rfl⟩
  | map k es =>
      rw [copyable, Bool.and_eq_true] at h
      obtain ⟨fs, hfs⟩ := exists_freezeEntries es h.2
      exact ⟨_, by rw [freeze, hfs]; rfl⟩
  | _ => exact ⟨_, copy_eq_ok h⟩

theorem exists_freezeItems (xs : List Value) (h : copyableItems xs = true) :
    ∃ ys, freezeItems xs = .ok ys := by
  cases xs with
  | nil => exact ⟨[], rfl⟩
  | cons x xs =>
      rw [copyableItems, Bool.and_eq_true] at h
      obtain ⟨y, hy⟩ := exists_freeze x h.1
      obtain ⟨ys, hys⟩ := exists_freezeItems xs h.2
      exact ⟨y :: ys, by simp [freezeItems, hy, hys]⟩

theorem exists_freezeEntries (es : List (Value × Value)) (h : copyableEntries es = true) :
    ∃ fs, freezeEntries es = .ok fs := by
  cases es with
  | nil => exact ⟨[], rfl⟩
  | cons e es =>
      obtain ⟨k, v⟩ := e
      simp only [copyableEntries, Bool.and_eq_true] at h
      obtain ⟨w, hw⟩ := exists_freeze v h.1.2
      obtain ⟨fs, hfs⟩ := exists_freezeEntries es h.2
      exact ⟨(k, w) :: fs, by simp [freezeEntries, hw, hfs]⟩

end

/-! ## Listed values -/

mutual

theorem listed_eq_self_iff (v : Value) : v.listed = v ↔ v.isListed = true := by
  cases v with
  | seq k xs => cases k <;> simp [listed, isListed, listedItems_eq_self_iff xs]
  | map k es => cases k <;> simp [listed, isListed, listedEntries_eq_self_iff es]
  | _ => simp [listed, isListed]

theorem listedItems_eq_self_iff (xs : List Value) : listedItems xs = xs ↔ areListed xs = true := by
  cases xs with
  | nil => simp [listedItems, areListed]
  | cons x xs =>
      simp [listedItems, areListed, listed_eq_self_iff x, listedItems_eq_self_iff xs]

theorem listedEntries_eq_self_iff (es : List (Value × Value)) :
    listedEntries es = es ↔ areListedIn es = true := by
  cases es with
  | nil => simp [listedEntries, areListedIn]
  | cons e es =>
      obtain ⟨k, v⟩ := e
      simp [listedEntries, areListedIn, listed_eq_self_iff v, listedEntries_eq_self_iff es]

end

mutual

theorem copyable_listed (v : Value) (h : v.copyable = true) : v.listed.copyable = true := by
  cases v with
  | seq k xs => exact copyableItems_listedItems xs h
  | map k es =>
      rw [copyable, Bool.and_eq_true] at h
      exact copyable_dict.mpr (copyableEntries_listedEntries es h.2)
  | _ => exact h

theorem copyableItems_listedItems (xs : List Value) (h : copyableItems xs = true) :
    copyableItems (listedItems xs) = true := by
  cases xs with
  | nil => rfl
  | cons x xs =>
      rw [copyableItems, Bool.and_eq_true] at h
      simp [listedItems, copyableItems, copyable_listed x h.1, copyableItems_listedItems xs h.2]

theorem copyableEntries_listedEntries (es : List (Value × Value))
    (h : copyableEntries es = true) : copyableEntries (listedEntries es) = true := by
  cases es with
  | nil => rfl
  | cons e es =>
      obtain ⟨k, v⟩ := e
      simp only [copyableEntries, Bool.and_eq_true] at h
      simp [listedEntries, copyableEntries, h.1.1, copyable_listed v h.1.2,
        copyableEntries_listedEntries es h.2]

end

end DocSearch.Value
