import Mathlib.Data.List.Basic

/-! # Where a picture can be opened

`video_access_unit_starts` looks for start codes of MPEG-2 and of H.264 at once, and takes
the low five bits of any of them for a type of H.264. A slice of an MPEG-2 picture whose row
has the low five bits of an IDR slice is taken for one.
-/

namespace Stream

inductive VideoStart where
  | none
  | params
  | clean
  deriving DecidableEq

/-- Sequence header, group of pictures, or a code that reads as an IDR slice. -/
def opens (code : UInt8) : Prop := code = 0xb3 ∨ code = 0xb8 ∨ code &&& 0x1f = 5

instance (code : UInt8) : Decidable (opens code) := inferInstanceAs (Decidable (_ ∨ _))

/-- The loop over the positions with a whole start code. -/
def scanStarts (best : VideoStart) : List UInt8 → VideoStart
  | first :: second :: third :: code :: later =>
      if first ≠ 0 ∨ second ≠ 0 ∨ third ≠ 1 then scanStarts best (second :: third :: code :: later)
      else if opens code then .clean
      else
        scanStarts (if code &&& 0x1f = 7 then .params else best)
          (second :: third :: code :: later)
  | _ => best

/-- Whether three bytes of a start code are at the head. -/
def beginsPes (data : List UInt8) : Bool := data.take 3 = [0, 0, 1]

def videoAccessUnitStarts (data : List UInt8) : VideoStart :=
  if data.length < 4 then .none
  else if 9 ≤ data.length ∧ beginsPes data then
    let header := 9 + (data.getD 8 0).toNat
    if data.length ≤ header then .none else scanStarts .none (data.drop header)
  else scanStarts .none data

/-! ## What a payload holds -/

/-- The codes behind the start code prefixes, in order. -/
def startCodes : List UInt8 → List UInt8
  | first :: second :: third :: code :: later =>
      if first = 0 ∧ second = 0 ∧ third = 1 then
        code :: startCodes (second :: third :: code :: later)
      else startCodes (second :: third :: code :: later)
  | _ => []

/-- The bytes of the elementary stream: those behind a PES header, which has nine bytes and
as many as the last of these says. -/
def elementary (data : List UInt8) : List UInt8 :=
  if beginsPes data then data.drop (9 + (data.getD 8 0).toNat) else data

/-- A PES header that the packet ends within, before its length. -/
def CutHeader (data : List UInt8) : Prop := beginsPes data ∧ data.length < 9

instance (data : List UInt8) : Decidable (CutHeader data) := inferInstanceAs (Decidable (_ ∧ _))

/-- Pictures, slices, extensions and user data of MPEG-2, without a sequence header or the
header of a group of pictures. -/
def WithinPictures (data : List UInt8) : Prop :=
  ∀ code ∈ startCodes (elementary data), code ≤ 0xaf ∨ code = 0xb2 ∨ code = 0xb5

instance (data : List UInt8) : Decidable (WithinPictures data) :=
  inferInstanceAs (Decidable (∀ _ ∈ _, _))

/-- Units of H.264. -/
def NalUnits (data : List UInt8) : Prop := ∀ code ∈ startCodes (elementary data), code < 0x80

/-- The first units of H.264, with type 5, or what reads like one. -/
def ReadsAsIdr (data : List UInt8) : Prop :=
  ∃ code ∈ startCodes (elementary data), code &&& 0x1f = 5

/-- What is expected of the search: it does not open MPEG-2 within a picture, and opens H.264
exactly at an IDR slice. -/
def OpensAsMeant (data : List UInt8) : Prop :=
  (WithinPictures data → videoAccessUnitStarts data ≠ .clean) ∧
    (NalUnits data → (videoAccessUnitStarts data = .clean ↔ ReadsAsIdr data))

/-! ## What the search answers -/

theorem scanStarts_clean {best : VideoStart} (other : best ≠ .clean) (data : List UInt8) :
    scanStarts best data = .clean ↔ ∃ code ∈ startCodes data, opens code := by
  fun_induction scanStarts best data with
  | case1 best first second third code later differs ih =>
      have elsewhere : ¬ (first = 0 ∧ second = 0 ∧ third = 1) := by
        rintro ⟨rfl, rfl, rfl⟩
        simp only [ne_eq, not_true_eq_false, or_self] at differs
      rw [ih other, startCodes, if_neg elsewhere]
  | case2 best first second third code later same found =>
      have here : first = 0 ∧ second = 0 ∧ third = 1 := by
        simpa only [ne_eq, not_or, Decidable.not_not] using same
      rw [startCodes, if_pos here]
      exact iff_of_true rfl ⟨code, List.mem_cons_self, found⟩
  | case3 best first second third code later same shut ih =>
      have here : first = 0 ∧ second = 0 ∧ third = 1 := by
        simpa only [ne_eq, not_or, Decidable.not_not] using same
      have kept : (if code &&& 0x1f = 7 then VideoStart.params else best) ≠ .clean := by
        split
        · exact nofun
        · exact other
      rw [ih kept, startCodes, if_pos here]
      simp only [List.mem_cons, exists_eq_or_imp, shut, false_or]
  | case4 data best short =>
      have nothing : startCodes data = [] := by
        unfold startCodes
        split
        · exact (short _ _ _ _ _ rfl).elim
        · rfl
      rw [nothing]
      exact iff_of_false other fun ⟨_, listed, _⟩ => nomatch listed

theorem startCodes_short {data : List UInt8} (short : data.length < 4) : startCodes data = [] := by
  unfold startCodes
  split
  · simp only [List.length_cons] at short
    omega
  · rfl

/-- The bytes that are searched: those of the elementary stream, and a header that the packet
ends within. -/
theorem videoAccessUnitStarts_clean (data : List UInt8) :
    videoAccessUnitStarts data = .clean ↔
      ∃ code ∈ startCodes (if CutHeader data then data else elementary data), opens code := by
  have start : VideoStart.none ≠ .clean := nofun
  have unopened (codes : List UInt8) (nothing : codes = []) : ¬ ∃ code ∈ codes, opens code := by
    rintro ⟨code, listed, -⟩
    exact List.not_mem_nil (nothing ▸ listed)
  unfold videoAccessUnitStarts
  by_cases short : data.length < 4
  · have within : (if CutHeader data then data else elementary data).length < 4 := by
      unfold elementary
      split
      · exact short
      · split
        · rw [List.length_drop]
          omega
        · exact short
    rw [if_pos short]
    exact iff_of_false nofun (unopened _ (startCodes_short within))
  rw [if_neg short]
  by_cases pes : beginsPes data = true
  · by_cases whole : 9 ≤ data.length
    · rw [if_pos ⟨whole, pes⟩, if_neg fun cut : CutHeader data => absurd cut.2 (by omega),
        elementary, if_pos pes]
      dsimp only
      split
      · rename_i behind
        rw [List.drop_eq_nil_of_le behind]
        exact iff_of_false nofun (unopened _ rfl)
      · exact scanStarts_clean start _
    · rw [if_neg fun both => whole both.1, if_pos ⟨pes, by omega⟩]
      exact scanStarts_clean start _
  · rw [if_neg fun both => pes both.2, if_neg fun cut : CutHeader data => pes cut.1, elementary,
      if_neg pes]
    exact scanStarts_clean start _

/-- Within pictures, the codes that open are those that read as IDR slices. -/
theorem opens_iff_of_low {code : UInt8} (low : code ≤ 0xaf ∨ code = 0xb2 ∨ code = 0xb5) :
    opens code ↔ code &&& 0x1f = 5 := by
  constructor
  · rintro (rfl | rfl | reads)
    · exact absurd low (by decide)
    · exact absurd low (by decide)
    · exact reads
  · exact fun reads => .inr (.inr reads)

theorem low_of_nal {code : UInt8} (nal : code < 0x80) : code ≤ 0xaf :=
  UInt8.le_trans (UInt8.le_of_lt nal) (by decide)

/-- The search opens as meant unless a slice of MPEG-2 reads as an IDR slice, or the packet
ends within a PES header that does. -/
theorem opens_as_meant_iff (data : List UInt8) :
    OpensAsMeant data ↔
      if CutHeader data then ∀ code ∈ startCodes data, ¬ opens code
      else WithinPictures data → ∀ code ∈ startCodes (elementary data), code &&& 0x1f ≠ 5 := by
  have clean := videoAccessUnitStarts_clean data
  by_cases cut : CutHeader data
  · have behind : elementary data = [] := by
      rw [elementary, if_pos cut.1]
      exact List.drop_eq_nil_of_le (Nat.le_trans (Nat.le_of_lt cut.2) (Nat.le_add_right ..))
    rw [if_pos cut] at clean ⊢
    have silent : startCodes (elementary data) = [] := congrArg startCodes behind
    have unread : ¬ ReadsAsIdr data := fun ⟨_, listed, _⟩ => nomatch silent ▸ listed
    have pictures : WithinPictures data := fun _ listed => nomatch silent ▸ listed
    have still : videoAccessUnitStarts data ≠ .clean ↔
        ∀ code ∈ startCodes data, ¬ opens code := by
      rw [ne_eq, clean, not_exists]
      exact forall_congr' fun code => not_and
    exact ⟨fun meant => still.mp (meant.1 pictures),
      fun spared => ⟨fun _ => still.mpr spared, fun _ => iff_of_false (still.mpr spared) unread⟩⟩
  · rw [if_neg cut] at clean ⊢
    have mpeg (pictures : WithinPictures data) : videoAccessUnitStarts data ≠ .clean ↔
        ∀ code ∈ startCodes (elementary data), code &&& 0x1f ≠ 5 := by
      rw [ne_eq, clean, not_exists]
      refine forall_congr' fun code => ?_
      rw [not_and]
      exact forall_congr' fun listed => not_congr (opens_iff_of_low (pictures code listed))
    have nal (units : NalUnits data) :
        videoAccessUnitStarts data = .clean ↔ ReadsAsIdr data := by
      rw [clean, ReadsAsIdr]
      refine exists_congr fun code => and_congr_right fun listed => ?_
      exact opens_iff_of_low (.inl (low_of_nal (units code listed)))
    exact ⟨fun meant pictures => (mpeg pictures).mp (meant.1 pictures),
      fun spared => ⟨fun pictures => (mpeg pictures).mpr (spared pictures), nal⟩⟩

/-- Behind a PES header, a slice of the fifth row. -/
def fifthRow : List UInt8 :=
  [0, 0, 1, 0xe0, 0, 0, 0x80, 0, 0, 0, 0, 1, 0x05, 0x2b]

theorem fifth_row_opens :
    ¬ ∀ data, WithinPictures data → videoAccessUnitStarts data ≠ .clean := by
  intro meant
  have only : startCodes (elementary fifthRow) = [0x05] := rfl
  have pictures : WithinPictures fifthRow := by
    intro code listed
    rw [only, List.mem_singleton] at listed
    subst listed
    decide
  exact meant fifthRow pictures rfl

end Stream
