import NancyMan.Telemetry.BrowserSanitizer
import NancyMan.Telemetry.SpoolRecord

/-!
# Envelopes that are sanitized twice

The spool sanitizes what it reads back, and what is received is sanitized again. A second pass cuts
and redacts what the first one made, and drops the hash of a session identifier, which is no tag that
an event may have: it changes nothing exactly where there is no session identifier and every redacted
text is settled.
-/
namespace NancyMan.Telemetry

open Json

/-- The texts of an event that are redacted, each settled at its length. -/
structure SettledTexts (input : Json) : Prop where
  safeMessage : Settled 2000
    (asBoundedString (recordOf input "error") "safeMessage" 2000 "Telemetry error")
  stack : ∀ text, textOf (recordOf input "error") "stack" = some text →
    Settled 24000 (sliceUnits 24000 text)
  componentStack : ∀ text, textOf (recordOf input "error") "componentStack" = some text →
    Settled 12000 (sliceUnits 12000 text)
  route : ∀ text, textOf (recordOf input "context") "route" = some text →
    Settled 512 (sliceUnits 512 text)
  tags : ∀ properties, (recordOf input "context").property? "tags" = some (.object properties) →
    ∀ key text, (key, Json.string text) ∈ properties → key ∈ allowedTagKeys →
      Settled 128 (sliceUnits 128 text)
  breadcrumbs : ∀ items, (recordOf input "context").property? "breadcrumbs" = some (.array items) →
    ∀ breadcrumb ∈ items.drop (items.length - 30), breadcrumb.isRecord = true →
      Settled 512 (asBoundedString breadcrumb "message" 512 "[REDACTED]")

variable {value written : Json} {name : String} {limit : Nat} {text : Option String}
  {rules : SanitizerRules}

theorem asBoundedString_again (other : String) {fallback : String}
    (short : textUnits fallback.toList ≤ limit)
    (found : textOf written name = some (asBoundedString value name limit fallback)) :
    asBoundedString written name limit other = asBoundedString value name limit fallback := by
  unfold asBoundedString
  rw [found]
  exact sliceUnits_eq_self (textUnits_asBoundedString value name short)

theorem optional_cut_again (found : textOf written name = text.map (sliceUnits limit)) :
    (textOf written name).map (sliceUnits limit) = text.map (sliceUnits limit) := by
  rw [found]
  cases text with
  | none => rfl
  | some there => exact congrArg some (sliceUnits_eq_self (textUnits_sliceUnits limit there))

/-- A text that may be left out is redacted to itself again exactly where it is settled. -/
theorem optional_again_iff
    (found : textOf written name = text.map fun text => sanitizeText (sliceUnits limit text)) :
    ((textOf written name).map fun text => sanitizeText (sliceUnits limit text)) =
        text.map (fun text => sanitizeText (sliceUnits limit text)) ↔
      ∀ there, text = some there → Settled limit (sliceUnits limit there) := by
  rw [found]
  cases text with
  | none => exact iff_of_true rfl nofun
  | some there =>
    simp only [Option.map_some, Option.some.injEq, forall_eq']
    exact sanitizeText_again_iff limit _

theorem map_eq_self_iff {α : Type} {items : List α} {change : α → α} :
    items.map change = items ↔ ∀ item ∈ items, change item = item := by
  have same := @List.map_inj_left α α items change id
  rw [List.map_id] at same
  exact same

/-! ## The error -/

/-- The properties of an error as they are written. -/
theorem textOf_error (error : TelemetryError) :
    textOf error.toJson "name" = some error.name ∧ textOf error.toJson "code" = some error.code ∧
      textOf error.toJson "safeMessage" = some error.safeMessage ∧
      textOf error.toJson "stack" = error.stack ∧
      textOf error.toJson "componentStack" = error.componentStack := by
  obtain ⟨name, code, safeMessage, stack, componentStack⟩ := error
  cases stack <;> cases componentStack <;>
    simp [textOf, TelemetryError.toJson, Json.property?, Json.lastProperty, Json.optional,
      Json.string?, textJson]

variable (firstHash : String → String) (secondHash : String → String)

/-- A sanitized error is sanitized to itself again exactly where its texts are settled. -/
theorem sanitizeError_again_iff (value : Json) :
    sanitizeError (serverRules secondHash) (sanitizeError (serverRules firstHash) value).toJson =
        sanitizeError (serverRules firstHash) value ↔
      Settled 2000 (asBoundedString value "safeMessage" 2000 "Telemetry error") ∧
        (∀ text, textOf value "stack" = some text → Settled 24000 (sliceUnits 24000 text)) ∧
        ∀ text, textOf value "componentStack" = some text →
          Settled 12000 (sliceUnits 12000 text) := by
  obtain ⟨name, code, safeMessage, stack, componentStack⟩ :=
    textOf_error (sanitizeError (serverRules firstHash) value)
  have nameAgain := asBoundedString_again "Error" (by decide) name
  have codeAgain := asBoundedString_again "UNKNOWN_ERROR" (by decide) code
  have messageAgain : asBoundedString (sanitizeError (serverRules firstHash) value).toJson
      "safeMessage" 2000 "Telemetry error" = sliceUnits 2000
        (sanitizeText (asBoundedString value "safeMessage" 2000 "Telemetry error")) := by
    rw [asBoundedString, safeMessage]
    rfl
  rw [← sanitizeText_again_iff, ← optional_again_iff stack, ← optional_again_iff componentStack,
    ← messageAgain]
  exact ⟨fun same => ⟨congrArg TelemetryError.safeMessage same, congrArg TelemetryError.stack same,
      congrArg TelemetryError.componentStack same⟩,
    fun ⟨message, trace, componentTrace⟩ =>
      TelemetryError.mk.injEq .. |>.mpr ⟨nameAgain, codeAgain, message, trace, componentTrace⟩⟩

/-! ## The context -/

/-- The properties of a context as they are written. -/
theorem properties_context (context : TelemetryContext) :
    textOf context.toJson "requestId" = context.requestId ∧
      textOf context.toJson "traceId" = context.traceId ∧
      textOf context.toJson "route" = context.route ∧
      textOf context.toJson "release" = some context.release ∧
      textOf context.toJson "service" = some context.service ∧
      textOf context.toJson "sessionId" = none ∧
      context.toJson.property? "tags" = tagsJson context.tags ∧
      context.toJson.property? "breadcrumbs" = breadcrumbsJson context.breadcrumbs := by
  have texts (text : Option String) : (text.map textJson).bind string? = text := by
    cases text <;> rfl
  have own (text : String) : string? (.string text) = some text := rfl
  unfold textOf
  simp only [property_context]
  simp [lastProperty, own, texts]

/-- The tags that are kept are allowed. -/
theorem key_of_mem_sanitizeTags {value : Option Json} {tag : String × String}
    (member : tag ∈ sanitizeTags rules value) : tag.1 ∈ allowedTagKeys := by
  unfold sanitizeTags at member
  split at member
  · obtain ⟨property, -, kept⟩ := List.mem_filterMap.mp member
    unfold sanitizeTag at kept
    split at kept
    · split at kept
      · rename_i allowed
        obtain rfl := Option.some.inj kept
        exact List.contains_iff_mem.mp allowed
      · cases kept
    · cases kept
  · cases member

/-- Tags that are allowed, sanitized as they are written. -/
theorem sanitizeTags_written {tags : List (String × String)}
    (allowed : ∀ tag ∈ tags, tag.1 ∈ allowedTagKeys) :
    sanitizeTags rules (tagsJson tags) =
      tags.map fun tag => (tag.1, rules.sanitizeText (sliceUnits 128 tag.2)) := by
  have kept : (tags.map fun tag => (tag.1, string tag.2)).filterMap (sanitizeTag rules) =
      tags.map fun tag => (tag.1, rules.sanitizeText (sliceUnits 128 tag.2)) := by
    rw [List.filterMap_map, ← List.filterMap_eq_map]
    refine List.filterMap_congr fun tag member => ?_
    show (if allowedTagKeys.contains tag.1 = true then
      some (tag.1, rules.sanitizeText (sliceUnits 128 tag.2)) else none) = _
    rw [if_pos (List.contains_iff_mem.mpr (allowed tag member))]
    rfl
  unfold tagsJson
  cases tags with
  | nil => rfl
  | cons first rest => exact kept

/-- The tags are kept as they are exactly where there is no hash of a session among them and their
texts are settled. -/
theorem sanitizeTags_again_iff (value : Option Json) (session : Option String) :
    sanitizeTags (serverRules secondHash) (tagsJson (sanitizeTags (serverRules firstHash) value ++
        (session.map fun text => ("sessionHash", firstHash text)).toList)) =
      sanitizeTags (serverRules firstHash) value ++
        (session.map fun text => ("sessionHash", firstHash text)).toList ↔
      session = none ∧ ∀ properties, value = some (.object properties) →
        ∀ key text, (key, Json.string text) ∈ properties → key ∈ allowedTagKeys →
          Settled 128 (sliceUnits 128 text) := by
  cases session with
  | some text =>
    refine iff_of_false ?_ (by simp)
    intro same
    have member : ("sessionHash", firstHash text) ∈ sanitizeTags (serverRules secondHash)
        (tagsJson (sanitizeTags (serverRules firstHash) value ++
          [("sessionHash", firstHash text)])) := by
      rw [show [("sessionHash", firstHash text)] =
        ((some text).map fun text => ("sessionHash", firstHash text)).toList from rfl, same]
      simp
    have allowed : "sessionHash" ∈ allowedTagKeys := key_of_mem_sanitizeTags member
    exact absurd allowed (by decide)
  | none =>
    rw [Option.map_none, Option.toList_none, List.append_nil,
      sanitizeTags_written fun tag member => key_of_mem_sanitizeTags member, map_eq_self_iff]
    simp only [true_and]
    constructor
    · rintro same properties rfl key text member allowed
      refine (sanitizeText_again_iff 128 _).mp ?_
      have kept : (key, sanitizeText (sliceUnits 128 text)) ∈
          sanitizeTags (serverRules firstHash) (some (.object properties)) := by
        refine List.mem_filterMap.mpr ⟨_, member, ?_⟩
        exact if_pos (List.contains_iff_mem.mpr allowed)
      exact (Prod.mk.inj (same _ kept)).2
    · intro settled tag member
      have allowed := key_of_mem_sanitizeTags member
      unfold sanitizeTags at member
      split at member
      · rename_i properties
        obtain ⟨⟨key, found⟩, inside, kept⟩ := List.mem_filterMap.mp member
        cases found with
        | string text =>
          obtain ⟨-, same⟩ := Option.ite_none_right_eq_some.mp kept
          obtain rfl := Option.some.inj same
          refine Prod.ext rfl ((sanitizeText_again_iff 128 _).mpr ?_)
          exact settled properties rfl key text inside allowed
        | _ => cases kept
      · cases member

theorem textOf_breadcrumb (breadcrumb : Breadcrumb) :
    textOf breadcrumb.toJson "at" = some breadcrumb.time ∧
      textOf breadcrumb.toJson "category" = some breadcrumb.category ∧
      textOf breadcrumb.toJson "message" = some breadcrumb.message := by
  simp [textOf, Breadcrumb.toJson, property?, lastProperty, string?]

/-- A breadcrumb that is read from a record. -/
def readBreadcrumb (rules : SanitizerRules) (value : Json) : Breadcrumb :=
  ⟨asBoundedString value "at" 40 epochText, asBoundedString value "category" 64 "unknown",
    rules.sanitizeText (asBoundedString value "message" 512 "[REDACTED]")⟩

theorem sanitizeBreadcrumb_toJson (rules : SanitizerRules) (breadcrumb : Breadcrumb) :
    sanitizeBreadcrumb rules breadcrumb.toJson = some (readBreadcrumb rules breadcrumb.toJson) :=
  rfl

/-- A breadcrumb as it is written is sanitized to itself again exactly where its message is
settled. -/
theorem sanitizeBreadcrumb_again_iff {breadcrumb : Breadcrumb}
    (made : sanitizeBreadcrumb (serverRules firstHash) value = some breadcrumb) :
    sanitizeBreadcrumb (serverRules secondHash) breadcrumb.toJson = some breadcrumb ↔
      Settled 512 (asBoundedString value "message" 512 "[REDACTED]") := by
  unfold sanitizeBreadcrumb at made
  split at made
  · obtain rfl := Option.some.inj made
    obtain ⟨time, category, message⟩ := textOf_breadcrumb ⟨asBoundedString value "at" 40 epochText,
      asBoundedString value "category" 64 "unknown",
      sanitizeText (asBoundedString value "message" 512 "[REDACTED]")⟩
    have timeAgain := asBoundedString_again epochText (by decide) time
    have categoryAgain := asBoundedString_again "unknown" (by decide) category
    rw [← sanitizeText_again_iff]
    rw [sanitizeBreadcrumb_toJson, Option.some.injEq]
    unfold readBreadcrumb
    rw [Breadcrumb.mk.injEq]
    refine Iff.trans (and_iff_right timeAgain) (Iff.trans (and_iff_right categoryAgain) ?_)
    have cut : asBoundedString (Breadcrumb.toJson ⟨asBoundedString value "at" 40 epochText,
        asBoundedString value "category" 64 "unknown",
        sanitizeText (asBoundedString value "message" 512 "[REDACTED]")⟩) "message" 512
          "[REDACTED]" = sliceUnits 512
            (sanitizeText (asBoundedString value "message" 512 "[REDACTED]")) := by
      rw [asBoundedString, message]
    rw [← cut]
    rfl
  · cases made

theorem length_sanitizeBreadcrumbs (rules : SanitizerRules) (items : List Json) :
    (sanitizeBreadcrumbs rules (some (.array items))).length ≤ 30 := by
  have kept : (sanitizeBreadcrumbs rules (some (.array items))).length ≤
      (items.drop (items.length - 30)).length := List.length_filterMap_le _ _
  rw [List.length_drop] at kept
  omega

/-- Breadcrumbs as they are written, if they are few, are all read. -/
theorem sanitizeBreadcrumbs_written {breadcrumbs : List Breadcrumb}
    (few : breadcrumbs.length ≤ 30) :
    sanitizeBreadcrumbs rules (breadcrumbsJson breadcrumbs) =
      breadcrumbs.map fun breadcrumb => readBreadcrumb rules breadcrumb.toJson := by
  unfold breadcrumbsJson
  cases breadcrumbs with
  | nil => rfl
  | cons first rest =>
    have whole : ((first :: rest).map Breadcrumb.toJson).length - 30 = 0 := by
      rw [List.length_map]
      omega
    show (((first :: rest).map Breadcrumb.toJson).drop
      (((first :: rest).map Breadcrumb.toJson).length - 30)).filterMap
        (sanitizeBreadcrumb rules) = _
    rw [whole, List.drop_zero, List.filterMap_map, ← List.filterMap_eq_map]
    rfl

/-- The breadcrumbs are kept as they are exactly where their messages are settled. -/
theorem sanitizeBreadcrumbs_again_iff (value : Option Json) :
    sanitizeBreadcrumbs (serverRules secondHash)
        (breadcrumbsJson (sanitizeBreadcrumbs (serverRules firstHash) value)) =
      sanitizeBreadcrumbs (serverRules firstHash) value ↔
      ∀ items, value = some (.array items) → ∀ breadcrumb ∈ items.drop (items.length - 30),
        breadcrumb.isRecord →
          Settled 512 (asBoundedString breadcrumb "message" 512 "[REDACTED]") := by
  cases value with
  | none => exact iff_of_true rfl nofun
  | some value =>
    cases value with
    | array items =>
      have written : sanitizeBreadcrumbs (serverRules secondHash)
          (breadcrumbsJson (sanitizeBreadcrumbs (serverRules firstHash) (some (.array items)))) =
            (sanitizeBreadcrumbs (serverRules firstHash) (some (.array items))).map
              fun breadcrumb => readBreadcrumb (serverRules secondHash) breadcrumb.toJson :=
        sanitizeBreadcrumbs_written (length_sanitizeBreadcrumbs (serverRules firstHash) items)
      rw [written, map_eq_self_iff]
      constructor
      · intro same others equal breadcrumb member record
        obtain rfl := Json.array.inj (Option.some.inj equal)
        have made : sanitizeBreadcrumb (serverRules firstHash) breadcrumb =
            some (readBreadcrumb (serverRules firstHash) breadcrumb) := if_pos record
        refine (sanitizeBreadcrumb_again_iff firstHash secondHash made).mp ?_
        rw [sanitizeBreadcrumb_toJson]
        exact congrArg some (same _ (List.mem_filterMap.mpr ⟨breadcrumb, member, made⟩))
      · intro settled breadcrumb member
        obtain ⟨value, inside, made⟩ := List.mem_filterMap.mp member
        have record : value.isRecord := by
          by_contra other
          unfold sanitizeBreadcrumb at made
          rw [if_neg other] at made
          cases made
        have again := (sanitizeBreadcrumb_again_iff firstHash secondHash made).mpr
          (settled items rfl value inside record)
        rw [sanitizeBreadcrumb_toJson] at again
        exact Option.some.inj again
    | _ => exact iff_of_true rfl nofun

/-- A sanitized context is sanitized to itself again exactly where it has no session identifier and
its texts are settled. -/
theorem sanitizeContext_again_iff (value : Json) :
    sanitizeContext (serverRules secondHash) (sanitizeContext (serverRules firstHash) value).toJson =
        sanitizeContext (serverRules firstHash) value ↔
      (∀ text, textOf value "route" = some text → Settled 512 (sliceUnits 512 text)) ∧
        (textOf value "sessionId" = none ∧
          ∀ properties, value.property? "tags" = some (.object properties) →
            ∀ key text, (key, string text) ∈ properties → key ∈ allowedTagKeys →
              Settled 128 (sliceUnits 128 text)) ∧
        ∀ items, value.property? "breadcrumbs" = some (.array items) →
          ∀ breadcrumb ∈ items.drop (items.length - 30), breadcrumb.isRecord →
            Settled 512 (asBoundedString breadcrumb "message" 512 "[REDACTED]") := by
  obtain ⟨requestId, traceId, route, release, service, session, tags, breadcrumbs⟩ :=
    properties_context (sanitizeContext (serverRules firstHash) value)
  have releaseAgain := asBoundedString_again "unknown" (by decide) release
  have serviceAgain := asBoundedString_again "unknown" (by decide) service
  have requestAgain := optional_cut_again requestId
  have traceAgain := optional_cut_again traceId
  rw [← optional_again_iff route, ← sanitizeTags_again_iff firstHash secondHash,
    ← sanitizeBreadcrumbs_again_iff firstHash secondHash]
  have written : sanitizeContext (serverRules secondHash)
      (sanitizeContext (serverRules firstHash) value).toJson =
        { sanitizeContext (serverRules firstHash) value with
          route := (textOf (sanitizeContext (serverRules firstHash) value).toJson "route").map
            fun text => sanitizeText (sliceUnits 512 text)
          tags := sanitizeTags (serverRules secondHash)
            (tagsJson (sanitizeContext (serverRules firstHash) value).tags)
          breadcrumbs := sanitizeBreadcrumbs (serverRules secondHash)
            (breadcrumbsJson (sanitizeContext (serverRules firstHash) value).breadcrumbs) } := by
    conv_lhs => rw [sanitizeContext, tags, breadcrumbs, session, requestAgain, traceAgain,
      releaseAgain, serviceAgain, Option.map_none, Option.toList_none, List.append_nil]
    rfl
  rw [written]
  constructor
  · intro same
    exact ⟨congrArg TelemetryContext.route same, congrArg TelemetryContext.tags same,
      congrArg TelemetryContext.breadcrumbs same⟩
  · rintro ⟨sameRoute, sameTags, sameBreadcrumbs⟩
    refine TelemetryContext.mk.injEq .. |>.mpr ⟨rfl, rfl, ?_, rfl, rfl, ?_, ?_⟩
    · exact sameRoute
    · exact sameTags
    · exact sameBreadcrumbs

/-! ## The envelope -/

variable (envelope : TelemetryEnvelope)

theorem records_envelope :
    recordOf envelope.toJson "error" = envelope.error.toJson ∧
      recordOf envelope.toJson "context" = envelope.context.toJson := by
  constructor <;>
    simp [recordOf, TelemetryEnvelope.toJson, property?, lastProperty,
      TelemetryError.toJson, TelemetryContext.toJson, isRecord]

theorem levelOf_envelope : levelOf envelope.toJson = envelope.level := by
  have found : textOf envelope.toJson "level" = some envelope.level.text := by
    simp [textOf, TelemetryEnvelope.toJson, property?, lastProperty, string?]
  unfold levelOf
  rw [found]
  cases envelope.level <;> decide

def adjoiningSecrets : Json :=
  .object [("error", .object [("safeMessage", .string "a@b.co0912345678")])]

end NancyMan.Telemetry
