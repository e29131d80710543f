import CodeAtlas.Proofs.Json.Forms

/-!
# What may be read of a text

A text with numbers that are misread may still be read, and then most of what was written
is found in it: what stands in an object first does not depend on what follows it, and what
a record is made of is what its members are decoded as.

* `ofText_pretty_obj`: **the first member of an object is read.**
* `Gives`, `Form.Gives`: what holds of whatever a value is read as.
* `Form.decode_first`: the first member of a record of two.
-/

namespace CodeAtlas.Json

variable {α β γ : Type} {d : ℕ}

/-! ## The first member -/

/-- Members that have been read stay. -/
theorem readMembers_append (bound : ℕ) (value : List Char → Step) (n : ℕ) (first : Bool) (members : List (String × Doc))
    (s : List Char) :
    ∃ more flaw rest, readMembers bound value n first members s = (.obj (members.reverse ++ more) flaw, rest) := by
  induction n generalizing first members s with
  | zero => exact ⟨[], _, _, by rw [List.append_nil]; rfl⟩
  | succ n ih =>
    have hnil (flaw rest) : ∃ more flaw' rest',
        ((.obj members.reverse flaw, rest) : Step) = (.obj (members.reverse ++ more) flaw', rest') :=
      ⟨[], flaw, rest, by rw [List.append_nil]⟩
    have hcons (m : String × Doc) (flaw rest) : ∃ more flaw' rest',
        ((.obj (m :: members).reverse flaw, rest) : Step) = (.obj (members.reverse ++ more) flaw', rest') :=
      ⟨[m], flaw, rest, by rw [List.reverse_cons]⟩
    unfold readMembers
    dsimp only
    split
    · exact hnil _ _
    · exact hnil _ _
    · split
      · exact hnil _ _
      · split
        · split
          · obtain ⟨more, flaw, rest, h⟩ := ih false (_ :: members) _
            exact ⟨_ :: more, flaw, rest, by rw [h, List.reverse_cons, List.append_assoc]; rfl⟩
          · exact hcons _ _ _
        · exact hcons _ _ _
        · exact hcons _ _ _
/-- **The first member of an object is read**, if it is legible, whatever the others are. -/
theorem ofText_pretty_obj {j : Json} (h : Legible 126 j) (key : String) (ms : List (String × Json)) :
    ∃ more flaw trailing,
      Doc.ofText (Json.obj ((key, j) :: ms)).pretty = (.obj ((key, Doc.ofJson j) :: more) flaw, trailing) := by
  have hopen : "\x7b".toList = ['\x7b'] := rfl
  obtain ⟨-, heach⟩ := length_spread "\x7b" "\x7d" 0 (prettyMembers 1 ((key, j) :: ms)) (by decide)
  have htext : (Json.obj ((key, j) :: ms)).pretty = spread "\x7b" "\x7d" 0 (prettyMembers 1 ((key, j) :: ms)) := by
    rw [Json.pretty, prettyAt]
  have hmember := heach (stringText key ++ ": " ++ prettyAt 1 j) (by simp [prettyMembers])
  rw [← htext, toList_member, memberText, toList_stringText] at hmember
  have hkey := length_le_flatMap_escape key.toList
  simp only [List.length_append, List.length_cons] at hmember
  obtain ⟨bound, hbound⟩ : ∃ bound, (Json.obj ((key, j) :: ms)).pretty.length = bound := ⟨_, rfl⟩
  have hlen : (Json.obj ((key, j) :: ms)).pretty.toList.length = bound := by rw [String.length_toList, hbound]
  rw [hlen] at hmember
  obtain ⟨tail, hends, hspread⟩ : ∃ tail, EndsNumber tail ∧ (Json.obj ((key, j) :: ms)).pretty.toList =
      '\x7b' :: (newline 1 ++ memberText key ((prettyAt 1 j).toList ++ tail)) := by
    refine ⟨moreLines 1 ((prettyMembers 1 ms).map String.toList) ++ (newline 0 ++ "\x7d".toList),
      endsNumber_moreLines 1 0 _ _, ?_⟩
    rw [htext, prettyMembers, toList_spread, toList_member, hopen]
    simp [memberText]
  -- the first value is legible and ends where its line does, so it is read before anything can go wrong
  have hvalue : readValue (bound + 1) 126 (' ' :: ((prettyAt 1 j).toList ++ tail)) = (Doc.ofJson j, some tail) := by
    rw [readValue_blank]
    exact readValue_pretty _ j 126 1 h (by omega) tail hends
  have hread : ∃ more flaw rest, readValue (bound + 1) maxDepth (Json.obj ((key, j) :: ms)).pretty.toList =
      (.obj ((key, Doc.ofJson j) :: more) flaw, rest) := by
    rw [hspread, show maxDepth = 126 + 1 from rfl, readValue_brace, readMembers_first (by omega) hvalue]
    exact readMembers_append _ _ bound false [(key, Doc.ofJson j)] tail
  obtain ⟨more, flaw, rest, hread⟩ := hread
  rw [Doc.ofText, hbound, hread]
  cases rest with
  | none => exact ⟨more, flaw, none, rfl⟩
  | some rest => exact ⟨more, flaw, _, rfl⟩
/-! ## What a value may be read as -/

theorem ok_of_bind {x : Except Problem α} {f : α → Except Problem β} {b : β} (h : (x >>= f) = .ok b) :
    ∃ a, x = .ok a ∧ f a = .ok b := by
  cases x with
  | error e => cases h
  | ok a => exact ⟨a, rfl, h⟩

theorem ok_of_map {x : Except Problem α} {f : α → β} {b : β} (h : x.map f = .ok b) : ∃ a, x = .ok a ∧ f a = b := by
  cases x with
  | error e => cases h
  | ok a => exact ⟨a, rfl, Except.ok.inj h⟩

/-- **What may be read of a value** that is legible: its text is not misread, its decoder may
take it for something else. -/
structure Gives (d : ℕ) (decode : Decoder α) (j : Json) (p : α → Prop) : Prop where
  legible : Legible d j
  decoded : ∀ a, decode (Doc.ofJson j) = .ok a → p a

theorem map_of_decodeAll {decode : Decoder α} {encode : α → Json} {view : α → β} {as bs : List α}
    (h : ∀ a ∈ as, Gives d decode (encode a) fun b => view b = view a)
    (hbs : Decode.decodeAll decode (Doc.ofItems (as.map encode)) = .ok bs) : bs.map view = as.map view := by
  induction as generalizing bs with
  | nil =>
    cases hbs
    rfl
  | cons a as ih =>
    obtain ⟨b, hb, hbs⟩ := ok_of_bind hbs
    obtain ⟨cs, hcs, hbs⟩ := ok_of_bind hbs
    cases hbs
    rw [List.map_cons, List.map_cons, (h a List.mem_cons_self).decoded b hb,
      ih (fun c hc => h c (List.mem_cons_of_mem _ hc)) hcs]

/-- **A view that is read of each item** is read of the list. -/
theorem Gives.list {decode : Decoder α} {encode : α → Json} {view : α → β} {as : List α}
    (h : ∀ a ∈ as, Gives d decode (encode a) fun b => view b = view a) :
    Gives (d + 1) (Decode.list decode) (.arr (as.map encode)) fun bs => bs.map view = as.map view := by
  constructor
  · refine ⟨Nat.succ_pos d, (legibleItems_iff _ _).2 fun j hj => ?_⟩
    obtain ⟨a, ha, rfl⟩ := List.mem_map.1 hj
    exact (h a ha).legible
  · intro bs hbs
    obtain ⟨cs, hcs, hbs⟩ := ok_of_bind hbs
    obtain ⟨_, -, hbs⟩ := ok_of_bind hbs
    obtain rfl : cs = bs := Except.ok.inj hbs
    exact map_of_decodeAll h hcs

namespace Form

/-- What a form makes of members, if it makes anything of them. -/
structure Gives (d : ℕ) (f : Form α) (ms : List (String × Json)) (p : α → Prop) : Prop where
  legible : ∀ m ∈ ms, Legible d m.2
  read : ∀ slots a, f.putAll (Doc.ofMembers ms) f.empty = .ok slots → f.build slots = .ok a → p a

theorem Stands.gives {f : Form α} {ms : List (String × Json)} {a : α} (h : Stands d f ms a)
    (hnames : (ms.map (·.1)).Nodup) : Gives d f ms (· = a) := by
  refine ⟨h.legible, fun slots b hput hbuild => ?_⟩
  obtain ⟨slots', hput', hbuild'⟩ := h.read hnames
  rw [hput] at hput'
  cases hput'
  exact Except.ok.inj (hbuild.symm.trans hbuild')

/-- **One more member**, of a name that is new. -/
theorem Gives.member {f : Form (α → β)} {ms : List (String × Json)} {p : (α → β) → Prop} {q : α → Prop}
    (h : Gives d f ms p) {name : String} {decode : Decoder α} {j : Json} (hj : Json.Gives d decode j q)
    (missing cut : Option α) (hname : ∀ m ∈ ms, m.1 ≠ name) :
    Gives d (f.member name decode missing cut) (ms ++ [(name, j)]) fun b => ∃ g a, p g ∧ q a ∧ b = g a := by
  constructor
  · intro m hm
    rcases List.mem_append.1 hm with hm | hm
    · exact h.legible m hm
    · obtain rfl := List.mem_singleton.1 hm
      exact hj.legible
  intro slots b hput hbuild
  -- the members before do not touch the new slot, and the last one fills it
  have hbefore : ∀ m ∈ Doc.ofMembers ms, m.1 ≠ name := by
    intro m hm
    obtain ⟨n, hn, hnm⟩ := mem_ofMembers hm
    exact hnm ▸ hname n hn
  have hall : (f.member name decode missing cut).putAll (Doc.ofMembers ms) (f.member name decode missing cut).empty =
      (f.putAll (Doc.ofMembers ms) f.empty).map fun s => (s, none) :=
    putAll_member f decode missing cut hbefore f.empty
  rw [ofMembers_append, putAll_append, hall] at hput
  obtain ⟨front, hfront, hput⟩ := ok_of_bind hput
  obtain ⟨slots', hslots, rfl⟩ := ok_of_map hfront
  simp only [Doc.ofMembers, putAll, put_member_self] at hput
  obtain ⟨next, hnext, hput⟩ := ok_of_bind hput
  obtain ⟨a, ha, rfl⟩ := ok_of_map hnext
  cases hput
  obtain ⟨g, hg, hbuild⟩ := ok_of_bind hbuild
  cases hbuild
  exact ⟨g, a, h.read slots' g hslots hg, hj.decoded a ha, rfl⟩

theorem Gives.record {f : Form α} {ms : List (String × Json)} {p : α → Prop} (h : Gives d f ms p) (name : String) :
    Json.Gives (d + 1) (f.decode name) (.obj ms) p := by
  refine ⟨⟨Nat.succ_pos d, (legibleMembers_iff _ _).2 h.legible⟩, fun a ha => ?_⟩
  obtain ⟨slots, hput, ha⟩ := ok_of_bind ha
  exact h.read slots a hput ha

variable {name name' : String} {decode : Decoder α} {decode' : Decoder β} {g : α → β → γ} {a : α}

/-- A member that has been read stays, since it cannot come twice. -/
theorem putAll_keeps {ms : List (String × Doc)} {slots slots' : (Unit × Option α) × Option β}
    (hslots : slots.1.2 = some a)
    (h : (start g |>.req name decode |>.req name' decode').putAll ms slots = .ok slots') : slots'.1.2 = some a := by
  induction ms generalizing slots with
  | nil =>
    cases h
    exact hslots
  | cons m ms ih =>
    obtain ⟨key, d⟩ := m
    obtain ⟨⟨u, r⟩, as⟩ := slots
    obtain rfl : r = some a := hslots
    simp only [putAll, req, member, start] at h
    by_cases hlast : key = name'
    · rw [if_pos hlast] at h
      cases as with
      | some b => cases h
      | none =>
        obtain ⟨next, hnext, h⟩ := ok_of_bind h
        obtain ⟨b, -, rfl⟩ := ok_of_map hnext
        exact ih rfl h
    · rw [if_neg hlast] at h
      by_cases hfirst : key = name
      · rw [if_pos hfirst] at h
        cases h
      · rw [if_neg hfirst] at h
        obtain ⟨u, -, h⟩ := ok_of_bind h
        exact ih rfl h

/-- **The first member of a record of two** is what is decoded first, whatever follows it. -/
theorem decode_first (hname : name ≠ name') {label : String} {d : Doc} {ms : List (String × Doc)} {flaw : Option Flaw}
    {c : γ} (h : (start g |>.req name decode |>.req name' decode').decode label (.obj ((name, d) :: ms) flaw) = .ok c) :
    ∃ a b, decode d = .ok a ∧ c = g a b := by
  obtain ⟨slots, hput, h⟩ := ok_of_bind h
  obtain ⟨_, -, hbuild⟩ := ok_of_bind h
  simp only [putAll, req, member, start, if_neg hname, if_true] at hput
  obtain ⟨next, hnext, hput⟩ := ok_of_bind hput
  obtain ⟨front, hfront, rfl⟩ := ok_of_map hnext
  obtain ⟨a, ha, rfl⟩ := ok_of_map hfront
  obtain ⟨⟨u, r⟩, s⟩ := slots
  obtain rfl : r = some a := putAll_keeps rfl hput
  cases s with
  | none => cases hbuild
  | some b =>
    cases hbuild
    exact ⟨a, b, ha, rfl⟩

end Form

end CodeAtlas.Json
