import Mathlib.Data.Nat.Find
import Mathlib.Data.String.Basic
import SqlAssembly.Text.Fitting

namespace SqlAssembly.Text

/-!
# What is kept of a long text

A text that is cut keeps the longest part from its start that fits into the limit; what is kept ends
between two characters, because it is a text itself.  The end is found by walking back from the
limit, byte by byte, to where a character ends: these are three steps at most, as a character has at
most four bytes.

* `Fills` — the longest part of a text from its start within a limit;
* `fills_fitting` — this is the part that is kept;
* `ellipsized_of_le`, `ellipsized_of_lt` — a text that fits, and one that does not;
* `kept`, `IsBoundary` — what is kept of a text, and where characters begin or end;
* `utf8ByteSize_kept` — what is kept ends at the last boundary within the limit;
* `Truncated`, `truncated_kept` — all that is known of what is kept;
* `ShownWithin`, `shownWithin_ellipsized` — a text as it is shown within a limit.
-/

/-- The longest part of a text from its start that fits into `limit` bytes. -/
structure Fills (limit : Nat) (s kept : String) : Prop where
  starts : ∃ rest, s = kept ++ rest
  fits : kept.utf8ByteSize ≤ limit
  longest : ∀ part rest, s = part ++ rest → part.utf8ByteSize ≤ limit → part.length ≤ kept.length

/-! ### Characters -/

/-- What fits is taken from the start of the text. -/
theorem fitting_isPrefix (limit : Nat) (s : List Char) : fitting limit s <+: s := by
  induction s generalizing limit with
  | nil => exact List.nil_prefix
  | cons c s ih =>
    unfold fitting
    split
    · exact (List.prefix_cons_inj c).mpr (ih (limit - c.utf8Size))
    · exact List.nil_prefix

/-- What fits is within the limit. -/
theorem utf8Len_fitting_le (limit : Nat) (s : List Char) :
    String.utf8Len (fitting limit s) ≤ limit := by
  induction s generalizing limit with
  | nil => exact Nat.zero_le limit
  | cons c s ih =>
    unfold fitting
    split
    · next hc =>
      -- the first character takes its bytes, and the rest fits into what is left
      have htail := ih (limit - c.utf8Size)
      rw [String.utf8Len]
      omega
    · exact Nat.zero_le limit

/-- Every part that fits is kept. -/
theorem prefix_fitting {limit : Nat} {part s : List Char} (hpart : part <+: s)
    (hfits : String.utf8Len part ≤ limit) : part <+: fitting limit s := by
  induction s generalizing limit part with
  | nil => rwa [fitting]
  | cons c s ih =>
    cases part with
    | nil => exact List.nil_prefix
    | cons d part =>
      obtain ⟨rfl, htail⟩ := List.cons_prefix_cons.mp hpart
      rw [String.utf8Len] at hfits
      have hd : d.utf8Size ≤ limit := by omega
      rw [fitting, if_pos hd]
      exact (List.prefix_cons_inj d).mpr (ih htail (by omega))

/-- A text within the limit fits as a whole. -/
theorem fitting_eq_self {limit : Nat} {s : List Char} (h : String.utf8Len s ≤ limit) :
    fitting limit s = s :=
  (fitting_isPrefix limit s).eq_of_length_le (prefix_fitting List.prefix_rfl h).length_le

/-- The first character that is not kept has at most four bytes, and did not fit. -/
theorem le_utf8Len_fitting {limit : Nat} {s : List Char} (h : limit < String.utf8Len s) :
    limit ≤ String.utf8Len (fitting limit s) + 3 := by
  induction s generalizing limit with
  | nil => exact absurd h (Nat.not_lt_zero limit)
  | cons c s ih =>
    rw [String.utf8Len] at h
    unfold fitting
    split
    · next hc =>
      have htail := @ih (limit - c.utf8Size) (by omega)
      rw [String.utf8Len]
      omega
    · have := c.utf8Size_le_four
      omega

/-! ### Texts -/

/-- What fits is the longest part that does. -/
theorem fills_fitting (limit : Nat) (s : String) :
    Fills limit s (String.ofList (fitting limit s.toList)) where
  starts := by
    obtain ⟨rest, hrest⟩ := fitting_isPrefix limit s.toList
    refine ⟨String.ofList rest, ?_⟩
    rw [← String.ofList_append, hrest, String.ofList_toList]
  fits := by
    rw [String.utf8ByteSize_ofList]
    exact utf8Len_fitting_le limit s.toList
  longest := by
    intro part rest hs hfits
    -- any other part from the start that fits is a part of the one that is kept
    have hpart : part.toList <+: s.toList := ⟨rest.toList, by rw [hs, String.toList_append]⟩
    rw [← String.utf8Len_toList] at hfits
    have hlength := (prefix_fitting hpart hfits).length_le
    rwa [String.length_toList, ← String.length_ofList] at hlength

/-- A text within the limit is shown as it is. -/
theorem ellipsized_of_le {limit : Nat} {s : String} (h : s.utf8ByteSize ≤ limit) :
    ellipsized limit s = s := if_pos h

/-- A text longer than the limit is cut, and three points are put behind it. -/
theorem ellipsized_of_lt {limit : Nat} {s : String} (h : limit < s.utf8ByteSize) :
    ∃ kept, Fills limit s kept ∧ ellipsized limit s = kept ++ "..." :=
  ⟨_, fills_fitting limit s, if_neg (Nat.not_le.mpr h)⟩

/-! ### Where a text is cut -/

/-- What is kept of a text within `limit` bytes. -/
def kept (limit : Nat) (s : String) : String := String.ofList (fitting limit s.toList)

/-- A byte position at an end of the text or between two of its characters. -/
def IsBoundary (s : String) (n : Nat) : Prop := String.Pos.Raw.IsValid s ⟨n⟩

instance (s : String) : DecidablePred (IsBoundary s) :=
  fun n => inferInstanceAs (Decidable (String.Pos.Raw.IsValid s ⟨n⟩))

/-- A boundary is where a part from the start may end. -/
theorem isBoundary_iff {s : String} {n : Nat} :
    IsBoundary s n ↔ ∃ part rest, s = part ++ rest ∧ n = part.utf8ByteSize := by
  rw [IsBoundary, String.Pos.Raw.isValid_iff_exists_append]
  simp only [String.Pos.Raw.ext_iff, String.byteIdx_rawEndPos]

/-- What is kept ends at a boundary. -/
theorem isBoundary_kept (limit : Nat) (s : String) : IsBoundary s (kept limit s).utf8ByteSize := by
  obtain ⟨rest, hrest⟩ := (fills_fitting limit s).starts
  exact isBoundary_iff.mpr ⟨kept limit s, rest, hrest, rfl⟩

/-- No boundary within the limit is behind what is kept. -/
theorem le_utf8ByteSize_kept {limit n : Nat} {s : String} (hn : IsBoundary s n) (h : n ≤ limit) :
    n ≤ (kept limit s).utf8ByteSize := by
  obtain ⟨part, rest, rfl, rfl⟩ := isBoundary_iff.mp hn
  rw [← String.utf8Len_toList] at h
  have hpart : part.toList <+: (part ++ rest).toList :=
    ⟨rest.toList, String.toList_append.symm⟩
  obtain ⟨more, hmore⟩ := prefix_fitting hpart h
  rw [kept, String.utf8ByteSize_ofList, ← hmore, String.utf8Len_append, String.utf8Len_toList]
  exact Nat.le_add_right _ _

/-- Walking back from the limit to the first boundary finds the end of what is kept. -/
theorem utf8ByteSize_kept (limit : Nat) (s : String) :
    (kept limit s).utf8ByteSize = Nat.findGreatest (IsBoundary s) limit := by
  refine (Nat.findGreatest_eq_iff.mpr ⟨(fills_fitting limit s).fits,
    fun _ => isBoundary_kept limit s, fun n hn hlimit hboundary => ?_⟩).symm
  exact absurd (le_utf8ByteSize_kept hboundary hlimit) (Nat.not_le.mpr hn)

/-- The part of a text that is left when it is cut at `limit` bytes: all of it if it fits, else the
longest part that does, which ends at the last boundary within the limit, and that is near. -/
structure Truncated (limit : Nat) (s part : String) : Prop extends Fills limit s part where
  whole : s.utf8ByteSize ≤ limit → part = s
  boundary : IsBoundary s part.utf8ByteSize
  last : part.utf8ByteSize = Nat.findGreatest (IsBoundary s) limit
  near : limit < s.utf8ByteSize → limit ≤ part.utf8ByteSize + 3

/-- What is kept of a text, told without the way it is computed. -/
theorem truncated_kept (limit : Nat) (s : String) : Truncated limit s (kept limit s) where
  toFills := fills_fitting limit s
  whole := by
    intro h
    rw [← String.utf8Len_toList] at h
    rw [kept, fitting_eq_self h, String.ofList_toList]
  boundary := isBoundary_kept limit s
  last := utf8ByteSize_kept limit s
  near := by
    intro h
    rw [← String.utf8Len_toList] at h
    rw [kept, String.utf8ByteSize_ofList]
    exact le_utf8Len_fitting h

/-- A text as it is shown within `limit` bytes: itself, or what is kept of it and three points. -/
def ShownWithin (limit : Nat) (s shown : String) : Prop :=
  s.utf8ByteSize ≤ limit ∧ shown = s ∨ limit < s.utf8ByteSize ∧ shown = kept limit s ++ "..."

/-- A text is shown within its limit. -/
theorem shownWithin_ellipsized (limit : Nat) (s : String) :
    ShownWithin limit s (ellipsized limit s) := by
  rcases Nat.lt_or_ge limit s.utf8ByteSize with hlong | hfits
  · exact .inr ⟨hlong, if_neg (Nat.not_le.mpr hlong)⟩
  · exact .inl ⟨hfits, ellipsized_of_le hfits⟩

/-- The three points are all that is shown beyond the limit. -/
theorem ShownWithin.utf8ByteSize_le {limit : Nat} {s shown : String}
    (h : ShownWithin limit s shown) : shown.utf8ByteSize ≤ limit + 3 := by
  rcases h with ⟨hfits, rfl⟩ | ⟨-, rfl⟩
  · exact Nat.le_add_right_of_le hfits
  · rw [String.utf8ByteSize_append]
    exact Nat.add_le_add_right (fills_fitting limit s).fits 3

end SqlAssembly.Text
