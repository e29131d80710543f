import CodeAtlas.Json.Decode
import CodeAtlas.Proofs.Json.Texts

/-!
# Reading written records

A record is written member by member in its declared order, and read by its form.
What is read of each member is what was written of it, so what is read of the record
is the record.

* `Stands`: a value stands for what it was written from.
* `Stands.list`, `Stands.option`, `Stands.strings`: values made of others.
* `Form.Stands.member`, `Form.Stands.record`: **records, member by member.**
* `Stands.decodeText`: the text of a value that stands for something.
-/

namespace CodeAtlas.Json

variable {α β : Type}

/-- **A value stands for what it was written from**: its text can be read, down to
some depth, and decoding it gives that again. -/
structure Stands (d : ℕ) (decode : Decoder α) (j : Json) (a : α) : Prop where
  legible : Legible d j
  decoded : decode (Doc.ofJson j) = .ok a

namespace Stands

variable {d : ℕ} {decode : Decoder α}

theorem str (d : ℕ) (s : String) : Stands d Decode.str (.str s) s := ⟨trivial, rfl⟩

theorem bool (d : ℕ) (b : Bool) : Stands d Decode.bool (.bool b) b := ⟨trivial, rfl⟩

theorem float (d : ℕ) {x : Float} (h : FloatReads x) : Stands d Decode.float (.float x) x := ⟨h, rfl⟩

theorem natOfBits (d : ℕ) {bits n : ℕ} (name : String) (hbits : bits ≤ 64) (hn : n < Nat.pow 2 bits) :
    Stands d (Decode.natOfBits bits name) (.nat n) n := by
  constructor
  · have hle : Nat.pow 2 bits ≤ Nat.pow 2 64 := Nat.pow_le_pow_right (by omega) hbits
    change n ≤ Nat.pow 2 64 - 1
    omega
  · simp only [Doc.ofJson, Decode.natOfBits, hn, if_true]

/-- A label stands for what the table has under it. -/
theorem label (d : ℕ) {table : List (String × α)} {l : String} {a : α} (h : Decode.ofLabel table l = .ok a) :
    Stands d (Decode.label table) (.str l) a := ⟨trivial, h⟩

/-- **A list stands for its members** if each item does. -/
theorem list {encode : α → Json} {as : List α} (h : ∀ a ∈ as, Stands d decode (encode a) a) :
    Stands (d + 1) (Decode.list decode) (.arr (as.map encode)) as := by
  constructor
  · refine ⟨Nat.succ_pos d, (legibleItems_iff _ _).2 fun j hj => ?_⟩
    obtain ⟨a, ha, rfl⟩ := List.mem_map.1 hj
    exact (h a ha).legible
  · have hall : Decode.decodeAll decode (Doc.ofItems (as.map encode)) = .ok as := by
      induction as with
      | nil => rfl
      | cons a as ih =>
        have hrest := ih fun a ha => h a (List.mem_cons_of_mem _ ha)
        simp only [List.map_cons, Doc.ofItems, Decode.decodeAll, (h a List.mem_cons_self).decoded, hrest]
        rfl
    simp only [Doc.ofJson, Decode.list, hall]
    rfl

theorem strings (d : ℕ) (l : List String) : Stands (d + 1) (Decode.list Decode.str) (.strings l) l :=
  list fun s _ => str d s

/-- **A value that may be missing** stands for itself if it is never written as nothing. -/
theorem option {encode : α → Json} {o : Option α} (h : ∀ a ∈ o, Stands d decode (encode a) a)
    (hnull : ∀ a, Doc.ofJson (encode a) ≠ .null) : Stands d (Decode.option decode) (.ofOption encode o) o := by
  cases o with
  | none => exact ⟨trivial, rfl⟩
  | some a =>
    have ha := h a rfl
    refine ⟨ha.legible, ?_⟩
    unfold Decode.option
    split
    · rename_i heq
      exact absurd heq (hnull a)
    · have hdec : decode (Doc.ofJson (encode a)) = .ok a := ha.decoded
      simp only [Json.ofOption, hdec]
      rfl

/-- **Texts of values that stand for something** are decoded as that. -/
theorem decodeText {j : Json} {a : α} (h : Stands maxDepth decode j a) : Json.decodeText decode j.pretty = .ok a := by
  simp only [Json.decodeText, ofText_pretty h.legible, h.decoded]
  rfl

end Stands

namespace Form

/-- **The members of a record stand for what its form makes of them**, if no two have one name. -/
structure Stands (d : ℕ) (f : Form α) (ms : List (String × Json)) (a : α) : Prop where
  legible : ∀ m ∈ ms, Legible d m.2
  read : (ms.map (·.1)).Nodup → ∃ slots, f.putAll (Doc.ofMembers ms) f.empty = .ok slots ∧ f.build slots = .ok a

theorem ofMembers_append (ms ns : List (String × Json)) :
    Doc.ofMembers (ms ++ ns) = Doc.ofMembers ms ++ Doc.ofMembers ns := by
  induction ms with
  | nil => rfl
  | cons m ms ih => simp [Doc.ofMembers, ih]

theorem putAll_append (f : Form α) (ms ns : List (String × Doc)) (slots : f.Slots) :
    f.putAll (ms ++ ns) slots = (f.putAll ms slots).bind (f.putAll ns) := by
  induction ms generalizing slots with
  | nil => rfl
  | cons m ms ih =>
    obtain ⟨k, d⟩ := m
    simp only [List.cons_append, putAll]
    cases f.put k d slots with
    | none =>
      cases ignored d with
      | error e => rfl
      | ok u => exact ih slots
    | some r =>
      cases r with
      | error e => rfl
      | ok s => exact ih s

theorem put_member_of_ne (f : Form (α → β)) {k name : String} (hk : k ≠ name) (decode : Decoder α)
    (missing cut : Option α) (d : Doc) (slots : f.Slots) (x : Option α) :
    (f.member name decode missing cut).put k d (slots, x) = (f.put k d slots).map fun r => r.map fun s => (s, x) :=
  if_neg hk

theorem put_member_self (f : Form (α → β)) (name : String) (decode : Decoder α) (missing cut : Option α) (d : Doc)
    (slots : f.Slots) :
    (f.member name decode missing cut).put name d (slots, none) = some ((decode d).map fun a => (slots, some a)) :=
  if_pos rfl

/-- Members before the last one of a form are those of the form without it. -/
theorem putAll_member (f : Form (α → β)) {name : String} (decode : Decoder α) (missing cut : Option α)
    {ms : List (String × Doc)} (hname : ∀ m ∈ ms, m.1 ≠ name) (slots : f.Slots) :
    (f.member name decode missing cut).putAll ms (slots, none) = (f.putAll ms slots).map fun s => (s, none) := by
  induction ms generalizing slots with
  | nil => rfl
  | cons m ms ih =>
    obtain ⟨k, d⟩ := m
    have hrest := ih fun m hm => hname m (List.mem_cons_of_mem _ hm)
    simp only [putAll, put_member_of_ne f (hname (k, d) List.mem_cons_self)]
    cases f.put k d slots with
    | none =>
      cases ignored d with
      | error e => rfl
      | ok u => exact hrest slots
    | some r =>
      cases r with
      | error e => rfl
      | ok s => exact hrest s

variable {d : ℕ}

theorem Stands.start (d : ℕ) (a : α) : Stands d (start a) [] a := ⟨by simp, fun _ => ⟨(), rfl, rfl⟩⟩

theorem mem_ofMembers {ms : List (String × Json)} {m : String × Doc} (hm : m ∈ Doc.ofMembers ms) :
    ∃ n ∈ ms, n.1 = m.1 := by
  induction ms with
  | nil => cases hm
  | cons n ms ih =>
    rcases List.mem_cons.1 hm with rfl | hm
    · exact ⟨n, List.mem_cons_self, rfl⟩
    · obtain ⟨k, hk, h⟩ := ih hm
      exact ⟨k, List.mem_cons_of_mem _ hk, h⟩

/-- **One more member.** -/
theorem Stands.member {f : Form (α → β)} {ms : List (String × Json)} {g : α → β} (h : Stands d f ms g)
    {name : String} {decode : Decoder α} {j : Json} {a : α} (hj : Json.Stands d decode j a)
    (missing cut : Option α) : Stands d (f.member name decode missing cut) (ms ++ [(name, j)]) (g a) := by
  refine ⟨?_, fun hnames => ?_⟩
  · intro m hm
    rcases List.mem_append.1 hm with hm | hm
    · exact h.legible m hm
    · obtain rfl := List.mem_singleton.1 hm
      exact hj.legible
  · simp only [List.map_append, List.map_cons, List.map_nil] at hnames
    obtain ⟨hms, -, hname⟩ := List.nodup_append.1 hnames
    obtain ⟨slots, hput, hbuild⟩ := h.read hms
    have hbefore : ∀ m ∈ Doc.ofMembers ms, m.1 ≠ name := by
      intro m hm
      obtain ⟨n, hn, hnm⟩ := mem_ofMembers hm
      exact hnm ▸ hname n.1 (List.mem_map_of_mem hn) name List.mem_cons_self
    -- the members before leave the new slot empty
    have hall := putAll_member f decode missing cut hbefore f.empty
    rw [hput] at hall
    have hall : (f.member name decode missing cut).putAll (Doc.ofMembers ms)
        (f.member name decode missing cut).empty = .ok (slots, none) := hall
    refine ⟨(slots, some a), ?_, ?_⟩
    · rw [ofMembers_append, putAll_append, hall]
      simp only [Except.bind, Doc.ofMembers, putAll, put_member_self, hj.decoded]
      rfl
    · simp only [Form.member, hbuild]
      rfl

/-- **A record stands for what its form makes of its members.** -/
theorem Stands.record {f : Form α} {ms : List (String × Json)} {a : α} (h : Stands d f ms a) (name : String)
    (hnames : (ms.map (·.1)).Nodup) : Json.Stands (d + 1) (f.decode name) (.obj ms) a := by
  obtain ⟨slots, hput, hbuild⟩ := h.read hnames
  refine ⟨⟨Nat.succ_pos d, (legibleMembers_iff _ _).2 h.legible⟩, ?_⟩
  simp only [Doc.ofJson, decode, hput]
  exact hbuild

/-- A member that has to be there. -/
theorem Stands.req {f : Form (α → β)} {ms : List (String × Json)} {g : α → β} (h : Stands d f ms g) {name : String}
    {decode : Decoder α} {j : Json} {a : α} (hj : Json.Stands d decode j a) :
    Stands d (f.req name decode) (ms ++ [(name, j)]) (g a) :=
  h.member hj none none

/-- A member that may be left out. -/
theorem Stands.opt {f : Form (Option α → β)} {ms : List (String × Json)} {g : Option α → β} (h : Stands d f ms g)
    {name : String} {decode : Decoder α} {j : Json} {o : Option α} (hj : Json.Stands d (Decode.option decode) j o) :
    Stands d (f.opt name decode) (ms ++ [(name, j)]) (g o) :=
  h.member hj (some none) none

/-- A member with a value of its own where it is left out. -/
theorem Stands.dflt {f : Form (α → β)} {ms : List (String × Json)} {g : α → β} (h : Stands d f ms g) {name : String}
    {decode : Decoder α} {value : α} {j : Json} {a : α} (hj : Json.Stands d decode j a) :
    Stands d (f.dflt name decode value) (ms ++ [(name, j)]) (g a) :=
  h.member hj (some value) (some value)

end Form

end CodeAtlas.Json
