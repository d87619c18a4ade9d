import BusWindow.Delivery
import BusWindow.Proofs.RoundTrip

/-!
# Canonical bodies — what is kept of a delivery stands for its value

    A record keeps the value of a body in its compact text. When the value is
    exact, the text reads back as the value, so taking it in once more keeps
    the same text, and two deliveries are kept alike exactly when they mean
    the same.
-/

namespace BusWindow.Delivery

open Json

variable {ignored : List String} {d : Delivery} {r : Record} {v : Value}

/-- A delivery becomes a record if and only if its key is not ignored and its
    body has a value; the record keeps the compact text of the value. -/
theorem record_eq_ok_iff :
    d.record ignored = .ok r
      ↔ ignored.contains d.routingKey = false
        ∧ ∃ v, parse d.body = .ok v ∧ r = ⟨v.compactBytes, d.routingKey, d.headers, d.sender⟩ := by
  rw [record]
  by_cases hignored : ignored.contains d.routingKey = true
  · rw [if_pos hignored]
    constructor
    · intro h
      exact nomatch h
    · rintro ⟨hnot, -⟩
      exact nomatch hignored.symm.trans hnot
  · rw [if_neg hignored]
    have hnot : ignored.contains d.routingKey = false := Bool.eq_false_iff.mpr hignored
    cases hparse : parse d.body with
    | error e =>
        constructor
        · intro h
          exact nomatch h
        · rintro ⟨-, w, hw, -⟩
          exact nomatch hw
    | ok w =>
        constructor
        · intro h
          exact ⟨hnot, w, rfl, (Except.ok.inj h).symm⟩
        · rintro ⟨-, w', hw, rfl⟩
          obtain rfl := Except.ok.inj hw
          rfl

/-- What a record keeps of the body of its delivery. -/
theorem body_of_record (accepted : d.record ignored = .ok r) (value : parse d.body = .ok v) :
    r.body = v.compactBytes := by
  obtain ⟨-, w, hw, rfl⟩ := record_eq_ok_iff.mp accepted
  obtain rfl := Except.ok.inj (value.symm.trans hw)
  rfl

/-- **STORED BODIES ARE CANONICAL**: if the value of a body is exact, what is
    kept of the body reads back as that value; a delivery that carries what
    was kept is kept as it is; and of two such deliveries the same is kept if
    and only if their bodies have the same value. -/
theorem stored_body_canonical (accepted : d.record ignored = .ok r) (value : parse d.body = .ok v)
    (exact : v.isExact = true) :
    parse r.body = .ok v
      ∧ { d with body := r.body }.record ignored = .ok r
      ∧ (∀ (ignored' : List String) (d' : Delivery), d'.body = r.body →
          ignored'.contains d'.routingKey = false →
          d'.record ignored' = .ok ⟨r.body, d'.routingKey, d'.headers, d'.sender⟩)
      ∧ ∀ (ignored' : List String) (d' : Delivery) (r' : Record) (v' : Value),
          d'.record ignored' = .ok r' → parse d'.body = .ok v' → v'.isExact = true →
          (r'.body = r.body ↔ v' = v) := by
  have hbody : r.body = v.compactBytes := body_of_record accepted value
  have hread : parse r.body = .ok v := by
    rw [hbody]
    exact parse_compactBytes value exact
  have hagain (ignored' : List String) (d' : Delivery) (hd : d'.body = r.body)
      (hkey : ignored'.contains d'.routingKey = false) :
      d'.record ignored' = .ok ⟨r.body, d'.routingKey, d'.headers, d'.sender⟩ :=
    record_eq_ok_iff.mpr ⟨hkey, v, by rw [hd, hread], by rw [hbody]⟩
  refine ⟨hread, ?_, hagain, ?_⟩
  · obtain ⟨hkey, w, -, rfl⟩ := record_eq_ok_iff.mp accepted
    exact hagain ignored _ rfl hkey
  · intro ignored' d' r' v' accepted' value' exact'
    have hbody' : r'.body = v'.compactBytes := body_of_record accepted' value'
    constructor
    · -- one text has one value
      intro heq
      have hread' : parse r'.body = .ok v' := by
        rw [hbody']
        exact parse_compactBytes value' exact'
      rw [heq, hread] at hread'
      exact (Except.ok.inj hread').symm
    · rintro rfl
      rw [hbody, hbody']

/-- A delivery with this text as its body. -/
def spelled (text : String) : Delivery := ⟨"orders", Utf8.ofString text, [], ""⟩

/-- The members out of order, one of them overridden, and an escape. -/
def shuffled : Delivery :=
  spelled "\x7b\"n\":[18446744073709551615,-1], \"a\":0, \"a\":\"\\u00e9\"\x7d"

/-- The same value with white space and no escape. -/
def spaced : Delivery :=
  spelled " \x7b\"a\" : \"é\",\"n\" : [ 18446744073709551615 , -1 ]\x7d "

/-- The value both mean. -/
def meant : Value :=
  .object [("a", .string "é"),
    ("n", .array [.number (.natural 18446744073709551615), .ofInt (-1)])]

theorem parse_shuffled : parse shuffled.body = .ok meant := by decide +kernel

theorem parse_spaced : parse spaced.body = .ok meant := by decide +kernel

theorem stored_body_canonical_spellings :
    ∃ r r' : Record, shuffled.record [] = .ok r ∧ spaced.record [] = .ok r'
      ∧ parse r.body = .ok meant ∧ r'.body = r.body := by
  have unignored (d : Delivery) : ([] : List String).contains d.routingKey = false := rfl
  have accepted := record_eq_ok_iff.mpr ⟨unignored _, meant, parse_shuffled, rfl⟩
  have accepted' := record_eq_ok_iff.mpr ⟨unignored _, meant, parse_spaced, rfl⟩
  obtain ⟨hread, -, -, hsame⟩ := stored_body_canonical accepted parse_shuffled (by decide)
  exact ⟨_, _, accepted, accepted', hread,
    (hsame [] spaced _ meant accepted' parse_spaced (by decide)).mpr rfl⟩

end BusWindow.Delivery
