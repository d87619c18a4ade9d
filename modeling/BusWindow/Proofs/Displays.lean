import BusWindow.Page
import BusWindow.Proofs.Canonical

/-!
# Displays — what is shown of a body means what is kept of it

    A body is shown in three ways: as it is, on several lines, and as the
    value that a program gets. The first two are texts. A body that is JSON
    is shown on several lines as a text of its value, and the space between
    the lines is lost when the text is read; a body that is none is shown
    by its characters alike in all three.

    * `bodyText_of_parse` and `bodyText_of_error` say what is shown of each
      kind;
    * `parse_indented` reads the lines back;
    * `displays_agree` is the whole statement.
-/

namespace BusWindow.Page

open Json Utf8

variable {body : Bytes} {v : Value} {e : Error}

/-- The lines of a JSON body are those of its value. -/
theorem bodyText_of_parse (h : parse body = .ok v) : bodyText true body = v.indented := by
  rw [bodyText, if_pos rfl, h]

/-- A body that is no JSON is shown by its characters. -/
theorem bodyText_of_error (h : parse body = .error e) (indent : Bool) :
    bodyText indent body = lossy body := by
  cases indent with
  | true => rw [bodyText, if_pos rfl, h]
  | false => rfl

theorem bodyOf_of_parse (h : parse body = .ok v) : MessageView.bodyOf body = v := by
  rw [MessageView.bodyOf, h]

theorem bodyOf_of_error (h : parse body = .error e) :
    MessageView.bodyOf body = .string (lossy body) := by
  rw [MessageView.bodyOf, h]

/-- An exact value that was read is read once more from its lines. -/
theorem parse_indented (h : parse body = .ok v) (exact : v.isExact = true) :
    parse (ofString v.indented) = .ok v := by
  obtain ⟨hordered, hnesting⟩ := ordered_of_parse h
  exact parse_written .indented exact hordered hnesting

/-- What is kept of a delivery is shown as it is kept, and no byte of it is
    replaced. -/
theorem bodyText_compactBytes (v : Value) : bodyText false v.compactBytes = v.compact :=
  lossy_ofString v.compact

/-- **EVERY DISPLAY OF A BODY MEANS THE BODY**: the lines of a JSON body with
    an exact value are read as that value, and every body of this value has
    the same lines. A body that is no JSON has the same characters with lines
    and without, and a program gets them as a text. What is kept of a
    delivery is shown byte for byte; if its value is exact, a program gets
    the value that was delivered, and the lines are those of the value that
    the program gets. -/
theorem displays_agree (body : Bytes) :
    (∀ v, parse body = .ok v → v.isExact = true →
        parse (ofString (bodyText true body)) = .ok v
          ∧ ∀ body', parse body' = .ok v → bodyText true body' = bodyText true body)
      ∧ (∀ e, parse body = .error e →
          bodyText true body = bodyText false body
            ∧ MessageView.bodyOf body = .string (bodyText false body))
      ∧ ∀ (ignored : List String) (d : Delivery) (r : Record) (v : Value),
          d.record ignored = .ok r → parse d.body = .ok v → r.body = body →
            bodyText false body = v.compact ∧ ofString (bodyText false body) = body
              ∧ (v.isExact = true → MessageView.bodyOf body = v
                  ∧ bodyText true body = (MessageView.bodyOf body).indented) := by
  refine ⟨?_, ?_, ?_⟩
  · intro v hvalue exact
    rw [bodyText_of_parse hvalue]
    exact ⟨parse_indented hvalue exact, fun body' hsame => bodyText_of_parse hsame⟩
  · intro e herror
    rw [bodyText_of_error herror, bodyText_of_error herror]
    exact ⟨rfl, bodyOf_of_error herror⟩
  · rintro ignored d r v accepted value rfl
    rw [Delivery.body_of_record accepted value, bodyText_compactBytes]
    refine ⟨rfl, rfl, fun exact => ?_⟩
    have hread := parse_compactBytes value exact
    rw [bodyOf_of_parse hread]
    exact ⟨rfl, bodyText_of_parse hread⟩

/-- A delivery with an empty array and an object in an array. -/
def nested : Delivery := Delivery.spelled " [ [ ] , \x7b \"a\" : null \x7d ]"

/-- The value of its body. -/
def nestedValue : Value := .array [.array [], .object [("a", .null)]]

/-- A body that is neither JSON nor well-formed. -/
def garbled : Bytes := [0x61, 0xFF]

theorem displays_agree_nested :
    (∃ r : Record, nested.record [] = .ok r
        ∧ bodyText false r.body = "[[],\x7b\"a\":null\x7d]"
        ∧ bodyText true r.body = "[\n  [],\n  \x7b\n    \"a\": null\n  \x7d\n]"
        ∧ parse (ofString (bodyText true r.body)) = .ok nestedValue)
      ∧ bodyText true garbled = "a\uFFFD"
      ∧ MessageView.bodyOf garbled = .string "a\uFFFD" := by
  have value : parse nested.body = .ok nestedValue := by decide +kernel
  have unignored : ([] : List String).contains nested.routingKey = false := rfl
  have accepted := Delivery.record_eq_ok_iff.mpr ⟨unignored, nestedValue, value, rfl⟩
  have herror : ∃ e, parse garbled = .error e := ⟨_, rfl⟩
  have hgarbled : bodyText false garbled = "a\uFFFD" := by decide +kernel
  obtain ⟨hread, -, hkept⟩ := displays_agree nestedValue.compactBytes
  obtain ⟨hcompact, -, hexact⟩ := hkept [] nested _ nestedValue accepted value rfl
  obtain ⟨hvalue, hlines⟩ := hexact (by decide)
  have hagain : parse nestedValue.compactBytes = .ok nestedValue :=
    parse_compactBytes value (by decide)
  obtain ⟨e, he⟩ := herror
  obtain ⟨hsame, htext⟩ := (displays_agree garbled).2.1 e he
  rw [hgarbled] at hsame htext
  refine ⟨⟨_, accepted, ?_, ?_, (hread nestedValue hagain (by decide)).1⟩, hsame, htext⟩
  · rw [hcompact]
    decide
  · rw [hlines, hvalue]
    decide

end BusWindow.Page
