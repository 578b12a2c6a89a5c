import Databind.Descriptor
import Databind.Proofs.Rewording

/-!
# `Proofs.Target` — keys that read back

A key is read by cutting it at the first `]`, and what stands between the brackets at the first `@`. What comes out is
tidy: its selector has no blanks at its ends, its names are clean, and no name has the separator that would end it.
Written out again, a tidy target is cut at the same places, so it is read as itself. What the selector and the attribute
hold beyond that does not matter: a selector may begin with a bracket, and an attribute that has an event may hold `@`.

## Main definitions

* `Descriptor.Tidy` — a target as keys give it.
* `Descriptor.text` — the key of a target.
-/

namespace Databind

namespace Text

variable {c : Char} {cs : List Char}

theorem mem_of_mem_cleanChars (h : c ∈ cleanChars cs) : c ∈ cs :=
  (List.mem_filter.mp (mem_of_mem_trimChars h)).1

theorem isStripped_of_mem_cleanChars (h : c ∈ cleanChars cs) : isStripped c = false := by
  have hkept := (List.mem_filter.mp (mem_of_mem_trimChars h)).2
  simpa using hkept

/-- **A clean name stays as it is.** -/
theorem cleanChars_cleanChars (cs : List Char) : cleanChars (cleanChars cs) = cleanChars cs := by
  have hkept : (cleanChars cs).filter (!isStripped ·) = cleanChars cs := by
    refine List.filter_eq_self.mpr ?_
    intro c hc
    rw [isStripped_of_mem_cleanChars hc]
    rfl
  calc cleanChars (cleanChars cs) = trimChars (cleanChars cs) := by rw [cleanChars, hkept]
    _ = cleanChars cs := trimChars_eq_self (snug_trimChars _)

theorem trim_trimChars (cs : List Char) : trim (String.ofList (trimChars cs)) = String.ofList (trimChars cs) := by
  rw [trim, String.toList_ofList, trimChars_eq_self (snug_trimChars cs)]

theorem cleanName_cleanChars (cs : List Char) :
    cleanName (String.ofList (cleanChars cs)) = String.ofList (cleanChars cs) := by
  rw [cleanName, String.toList_ofList, cleanChars_cleanChars]

theorem cleanName_empty : cleanName "" = "" := rfl

/-- A clean name has no separators of names. -/
theorem not_mem_of_clean {name : String} (h : cleanName name = name) (hc : isStripped c = true) : c ∉ name.toList := by
  intro hmem
  rw [← h, cleanName, String.toList_ofList] at hmem
  rw [isStripped_of_mem_cleanChars hmem] at hc
  cases hc

end Text

namespace Descriptor

variable {d : Descriptor} {key defaultEvent : String}

/-! ## Targets that keys give -/

/-- **A target as keys give it.** Its event is the default one, or a name without `@` that is not empty; its attribute
has no `@` unless it has an event. -/
structure Tidy (defaultEvent : String) (d : Descriptor) : Prop where
  selector : Text.trim d.selector = d.selector
  attr : Text.cleanName d.attr = d.attr
  event : ∀ e, d.event = some e → e = defaultEvent ∨ (e ≠ "" ∧ Text.cleanName e = e ∧ '@' ∉ e.toList)
  plain : d.event = none → '@' ∉ d.attr.toList

/-- The attribute and the event between brackets are tidy, with any selector that is. -/
theorem tidy_readTarget (inner : List Char) (defaultEvent : String) {selector : String}
    (hselector : Text.trim selector = selector) :
    Tidy defaultEvent ⟨selector, (readTarget inner defaultEvent).1, (readTarget inner defaultEvent).2⟩ := by
  unfold readTarget
  split
  · next event attr hsplit =>
    refine ⟨hselector, Text.cleanName_cleanChars attr, fun e he => ?_, fun hnone => nomatch hnone⟩
    obtain rfl := Option.some.inj he
    by_cases hempty : Text.cleanChars event = []
    · exact .inl (if_pos hempty)
    · refine .inr ?_
      rw [if_neg hempty]
      refine ⟨fun hblank => hempty (String.ofList_inj.mp hblank), Text.cleanName_cleanChars event, ?_⟩
      -- the text was cut at its first `@`
      rw [String.toList_ofList]
      exact fun hmem => (Text.splitAt?_eq_some hsplit).2 (Text.mem_of_mem_cleanChars hmem)
  · next hsplit =>
    refine ⟨hselector, Text.cleanName_cleanChars inner, fun e he => (nomatch he), fun _ => ?_⟩
    rw [String.toList_ofList]
    exact fun hmem => Text.splitAt?_eq_none_iff.mp hsplit (Text.mem_of_mem_cleanChars hmem)

/-- **Keys give tidy targets.** -/
theorem tidy_of_parse (h : parse key defaultEvent = .ok d) : d.Tidy defaultEvent := by
  unfold parse at h
  split at h
  · split at h
    · next inner selector _ =>
      cases h
      exact tidy_readTarget inner defaultEvent (Text.trim_trimChars selector)
    · cases h
  · cases h
    exact ⟨Text.trim_trimChars _, Text.cleanName_empty, fun e he => (nomatch he), fun _ => by simp⟩

/-- **A key is refused** exactly if its first bracket is never closed. -/
theorem parse_eq_error_iff {e : BindError} : parse key defaultEvent = .error e ↔
    e = .invalidDescriptor key ∧ ∃ rest, key.toList = '[' :: rest ∧ ']' ∉ rest := by
  unfold parse
  split
  · next rest hkey =>
    cases hsplit : Text.splitAt? ']' rest with
    | none =>
      have hopen := Text.splitAt?_eq_none_iff.mp hsplit
      simp [hkey, hopen, eq_comm]
    | some parts =>
      have hclosed : ']' ∈ rest := by simp [(Text.splitAt?_eq_some hsplit).1]
      simp [hkey, hclosed]
  · next hplain =>
    refine ⟨nofun, ?_⟩
    rintro ⟨-, rest, hkey, -⟩
    exact absurd hkey (hplain rest)

/-! ## The key of a target -/

/-- What stands between the brackets: the attribute, behind the event if there is one. The default event is left out. -/
def target (d : Descriptor) (defaultEvent : String) : String :=
  match d.event with
  | none => d.attr
  | some event => (if event = defaultEvent then "" else event) ++ "@" ++ d.attr

/-- **The key of a target**, with brackets even if nothing stands between them. -/
def text (d : Descriptor) (defaultEvent : String) : String := "[" ++ d.target defaultEvent ++ "]" ++ d.selector

/-- A key in brackets is cut at the first bracket that closes. -/
theorem parse_bracketed {inner selector : String} (h : ']' ∉ inner.toList) :
    parse ("[" ++ inner ++ "]" ++ selector) defaultEvent =
      .ok ⟨Text.trim selector, (readTarget inner.toList defaultEvent).1, (readTarget inner.toList defaultEvent).2⟩ := by
  have hkey : ("[" ++ inner ++ "]" ++ selector).toList = '[' :: (inner.toList ++ ']' :: selector.toList) := by simp
  unfold parse
  rw [hkey]
  simp only [Text.splitAt?_of_not_mem h, Text.trim]

theorem readTarget_of_not_mem {attr : String} (h : '@' ∉ attr.toList) (defaultEvent : String) :
    readTarget attr.toList defaultEvent = (Text.cleanName attr, none) := by
  unfold readTarget
  rw [Text.splitAt?_eq_none_iff.mpr h]
  rfl

/-- An attribute behind `@` has an event, the default one if none is written. -/
theorem readTarget_event {event : String} (h : '@' ∉ event.toList) (attr defaultEvent : String) :
    readTarget (event ++ "@" ++ attr).toList defaultEvent =
      (Text.cleanName attr, some (if Text.cleanName event = "" then defaultEvent else Text.cleanName event)) := by
  have hinner : (event ++ "@" ++ attr).toList = event.toList ++ '@' :: attr.toList := by simp
  have hempty : Text.cleanChars event.toList = [] ↔ Text.cleanName event = "" := by
    rw [Text.cleanName, String.ofList_eq_empty_iff]
  unfold readTarget
  rw [hinner, Text.splitAt?_of_not_mem h]
  simp only [hempty]
  rfl

/-- **What stands between the brackets of a tidy target is read as its attribute and its event.** -/
theorem readTarget_target (h : d.Tidy defaultEvent) :
    readTarget (d.target defaultEvent).toList defaultEvent = (d.attr, d.event) := by
  unfold target
  cases hevent : d.event with
  | none => rw [readTarget_of_not_mem (h.plain hevent), h.attr]
  | some event =>
    by_cases hdefault : event = defaultEvent
    · have hwritten := @readTarget_event "" (by simp)
      simp only [hdefault, hwritten, Text.cleanName_empty, if_pos, h.attr]
    · obtain ⟨hne, hclean, hat⟩ := (h.event event hevent).resolve_left hdefault
      simp only [if_neg hdefault, readTarget_event hat, hclean, if_neg hne, h.attr]

/-- No bracket closes before the one behind the attribute. -/
theorem not_mem_target (h : d.Tidy defaultEvent) : ']' ∉ (d.target defaultEvent).toList := by
  have hattr : ']' ∉ d.attr.toList := Text.not_mem_of_clean h.attr (by decide)
  unfold target
  cases hevent : d.event with
  | none => exact hattr
  | some event =>
    by_cases hdefault : event = defaultEvent
    · simp [hdefault, hattr]
    · have hclean := ((h.event event hevent).resolve_left hdefault).2.1
      have hname : ']' ∉ event.toList := Text.not_mem_of_clean hclean (by decide)
      simp [hdefault, hattr, hname]

/-- **The key of a tidy target is read as the target.** -/
theorem parse_text (h : d.Tidy defaultEvent) : parse (d.text defaultEvent) defaultEvent = .ok d := by
  rw [text, parse_bracketed (not_mem_target h), readTarget_target h, h.selector]

/-- **Keys read back.** Whatever is read from a key, be it with brackets or without, the key that is written from it is
read as the same target. The tidy targets are those that have a key. Only a key whose first bracket is never closed is
refused, and the error holds the key. -/
theorem parse_text_of_key (key defaultEvent : String) :
    (∀ d, parse key defaultEvent = .ok d → parse (d.text defaultEvent) defaultEvent = .ok d) ∧
      (∀ d : Descriptor, d.Tidy defaultEvent ↔ ∃ key, parse key defaultEvent = .ok d) ∧
      ∀ e, parse key defaultEvent = .error e ↔
        e = .invalidDescriptor key ∧ ∃ rest, key.toList = '[' :: rest ∧ ']' ∉ rest := by
  refine ⟨fun d h => parse_text (tidy_of_parse h), fun d => ⟨fun h => ⟨_, parse_text h⟩, ?_⟩,
    fun e => parse_eq_error_iff⟩
  rintro ⟨key', h⟩
  exact tidy_of_parse h

/-- An event, an attribute with a second `@`, and a selector that begins with a bracket. -/
theorem parse_text_of_key_bracketed :
    parse "[ keyup @ (a@b) ] [x] li " "change" = .ok ⟨"[x] li", "a@b", some "keyup"⟩ ∧
      text ⟨"[x] li", "a@b", some "keyup"⟩ "change" = "[keyup@a@b][x] li" ∧
      parse "[keyup@a@b][x] li" "change" = .ok ⟨"[x] li", "a@b", some "keyup"⟩ := by
  have hkey : parse "[ keyup @ (a@b) ] [x] li " "change" = .ok ⟨"[x] li", "a@b", some "keyup"⟩ := by decide +kernel
  have htext : text ⟨"[x] li", "a@b", some "keyup"⟩ "change" = "[keyup@a@b][x] li" := by decide +kernel
  exact ⟨hkey, htext, htext ▸ (parse_text_of_key _ _).1 _ hkey⟩

end Descriptor

end Databind
