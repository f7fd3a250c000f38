import AIHub.Slack.Updates

/-!
# Slack route targets

A route is stored as `slack-v1:<channel>:<thread>`, with `_` for a route without a thread. The
components have no colon, so the first one ends the channel, and none of them is `_`, since they
start with a letter or a digit. Besides, the decoder takes two older formats; what it makes of them
is not encoded that way again.

Main result: `slackRouteTargets`.
-/

namespace AIHub

/-! ## Components -/

/-- A component is an opaque text without colons. -/
theorem slackRouteComponent_chars {cs : List Char} (h : slackRouteComponent cs = true) :
    (∀ c ∈ cs, isOpaqueChar c = true) ∧ ':' ∉ cs := by
  cases cs with
  | nil => simp [slackRouteComponent, Text.headThen] at h
  | cons d ds =>
    simp only [slackRouteComponent, Text.headThen, Bool.and_eq_true, List.all_eq_true] at h
    obtain ⟨-, hd, hds⟩ := h
    have hchars : ∀ c ∈ d :: ds, (Text.isAlnum c || c == '.' || c == '_' || c == '-') = true := by
      refine List.forall_mem_cons.2 ⟨?_, hds⟩
      simp only [hd, Bool.true_or]
    refine ⟨fun c hc => ?_, fun hcolon => absurd (hchars ':' hcolon) (by decide)⟩
    have hc := hchars c hc
    simp only [isOpaqueChar, Bool.or_eq_true] at hc ⊢
    tauto

theorem slackRouteComponent_graphic {cs : List Char} (h : slackRouteComponent cs = true) :
    ∀ c ∈ cs, Text.inRange '!' '~' c = true := fun c hc =>
  graphic_of_isOpaqueChar ((slackRouteComponent_chars h).1 c hc)

/-- What stands for the thread in the target of a route. -/
def SlackRoute.threadText (route : SlackRoute) : String :=
  (route.threadTs.map (·.val)).getD "_"

/-! ## Encoding -/

theorem encodeSlackRouteTarget_ok {redact : Redaction} {route : SlackRoute} {target : String} :
    encodeSlackRouteTarget redact route = .ok target ↔
      (∀ c ∈ route.components, slackRouteComponent c.toList = true ∧ redact 4000 c = c) ∧
        target.length ≤ 200 ∧
        target = "slack-v1:" ++ route.channel.val ++ ":" ++ route.threadText := by
  have hcomponents : (route.components.any fun c =>
      !slackRouteComponent c.toList || redact 4000 c ≠ c) = true ↔
      ¬ ∀ c ∈ route.components, slackRouteComponent c.toList = true ∧ redact 4000 c = c := by
    rw [List.any_eq_true]
    push Not
    refine exists_congr fun c => and_congr_right fun _ => ?_
    cases slackRouteComponent c.toList <;> simp
  unfold encodeSlackRouteTarget
  dsimp only
  split_ifs with hany hlength
  · simp only [false_iff]
    exact fun h => hcomponents.1 hany h.1
  · simp only [false_iff]
    rintro ⟨-, hle, rfl⟩
    exact absurd hlength (Nat.not_lt.2 hle)
  · rw [Except.ok.injEq]
    constructor
    · rintro rfl
      exact ⟨not_not.1 fun hall => hany (hcomponents.2 hall), Nat.not_lt.1 hlength, rfl⟩
    · rintro ⟨-, -, rfl⟩
      rfl

theorem toList_encoded (channel thread : String) :
    ("slack-v1:" ++ channel ++ ":" ++ thread).toList =
      "slack-v1:".toList ++ (channel.toList ++ ':' :: thread.toList) := by
  simp

/-! ## Decoding -/

theorem removePrefix?_eq_some {start text : String} {rest : List Char} :
    removePrefix? start text = some rest ↔ text.toList = start.toList ++ rest := by
  unfold removePrefix?
  split_ifs with h
  · obtain ⟨rest', hrest⟩ := List.isPrefixOf_iff_prefix.1 h
    rw [← hrest, List.drop_left, Option.some.injEq, List.append_cancel_left_eq]
  · simp only [false_iff]
    intro htext
    exact h (List.isPrefixOf_iff_prefix.2 ⟨rest, htext.symm⟩)

/-- The fields of a route are valid as they are. -/
theorem SlackRoute.validate_self (route : SlackRoute) :
    SlackRoute.validate route.channel.val (route.threadTs.map (·.val)) = .ok route := by
  obtain ⟨channel, threadTs⟩ := route
  cases threadTs with
  | none =>
    unfold SlackRoute.validate
    rw [validateField_of_val]
    rfl
  | some thread =>
    unfold SlackRoute.validate
    dsimp only [Option.map_some]
    rw [validateField_of_val, validateField_of_val]
    rfl

/-- Components are valid fields, and the route has them as they are. -/
theorem SlackRoute.validate_components {channel : String} {thread : Option String}
    {route : SlackRoute} (h : SlackRoute.validate channel thread = .ok route)
    (hchannel : slackRouteComponent channel.toList = true)
    (hthread : ∀ t ∈ thread, slackRouteComponent t.toList = true) :
    route.channel.val = channel ∧ route.threadTs.map (·.val) = thread := by
  unfold SlackRoute.validate at h
  obtain ⟨channel', hfield, h⟩ := bind_eq_ok.1 h
  have hchannel' := validateField_val hfield (slackRouteComponent_graphic hchannel)
  cases thread with
  | none =>
    cases h
    exact ⟨hchannel', rfl⟩
  | some t =>
    obtain ⟨thread', hfield', h⟩ := bind_eq_ok.1 h
    cases h
    refine ⟨hchannel', ?_⟩
    rw [Option.map_some,
      validateField_val hfield' (slackRouteComponent_graphic (hthread t rfl))]

/-- The decoder takes the target of the current format apart. -/
theorem decodeSlackRouteTarget_current {target : String} {channel thread : List Char}
    (htarget : target.toList = "slack-v1:".toList ++ (channel ++ ':' :: thread))
    (hcolon : ':' ∉ channel) :
    decodeSlackRouteTarget target =
      if ¬ slackRouteComponent channel ∨ (thread ≠ ['_'] ∧ ¬ slackRouteComponent thread) then
        .error (.value "stored Slack route target is invalid")
      else SlackRoute.validate (String.ofList channel)
        (if thread = ['_'] then none else some (String.ofList thread)) := by
  have hkept : ∀ c ∈ channel, decide (c ≠ ':') = true := fun c hc =>
    decide_eq_true fun heq => hcolon (heq ▸ hc)
  have htake : (channel ++ ':' :: thread).takeWhile (· ≠ ':') = channel := by
    rw [List.takeWhile_append_of_pos hkept]
    simp
  have hdrop : (channel ++ ':' :: thread).dropWhile (· ≠ ':') = ':' :: thread := by
    rw [List.dropWhile_append_of_pos hkept]
    simp
  unfold decodeSlackRouteTarget
  rw [removePrefix?_eq_some.2 htarget]
  dsimp only
  rw [htake, hdrop, List.drop_one, List.tail_cons]
  simp only [reduceCtorEq, false_or]

/-- What the decoder accepts in the current format has a channel and a thread. -/
theorem decodeSlackRouteTarget_parts {target : String} {route : SlackRoute}
    (hcurrent : "slack-v1:".toList <+: target.toList)
    (h : decodeSlackRouteTarget target = .ok route) :
    ∃ channel thread, target.toList = "slack-v1:".toList ++ (channel ++ ':' :: thread) ∧
      ':' ∉ channel := by
  obtain ⟨encoded, hencoded⟩ := hcurrent
  have hnone : ':' ∉ encoded.takeWhile (· ≠ ':') := by
    intro hmem
    have hne := List.mem_takeWhile_imp hmem
    simp at hne
  cases hrest : encoded.dropWhile (· ≠ ':') with
  | nil =>
    unfold decodeSlackRouteTarget at h
    rw [removePrefix?_eq_some.2 hencoded.symm] at h
    dsimp only at h
    rw [if_pos (.inl hrest)] at h
    cases h
  | cons c thread =>
    have hhead := List.head?_dropWhile_not (fun x => decide (x ≠ ':')) encoded
    rw [hrest] at hhead
    obtain rfl : c = ':' := not_not.1 (of_decide_eq_false hhead)
    refine ⟨encoded.takeWhile (· ≠ ':'), thread, ?_, hnone⟩
    rw [← hencoded, ← hrest, List.takeWhile_append_dropWhile]

/-! ## Round trips -/

/-- A route that can be encoded is decoded from its target. -/
theorem decode_encoded {redact : Redaction} {route : SlackRoute} {target : String}
    (h : encodeSlackRouteTarget redact route = .ok target) :
    decodeSlackRouteTarget target = .ok route := by
  obtain ⟨hcomponents, -, rfl⟩ := encodeSlackRouteTarget_ok.1 h
  obtain ⟨hchannel, -⟩ := hcomponents route.channel.val List.mem_cons_self
  rw [decodeSlackRouteTarget_current (toList_encoded _ _) (slackRouteComponent_chars hchannel).2]
  cases hthread : route.threadTs with
  | none =>
    have htext : route.threadText.toList = ['_'] := by
      rw [SlackRoute.threadText, hthread]
      rfl
    rw [if_neg (by simp [hchannel, htext]), if_pos htext, String.ofList_toList]
    have hself := route.validate_self
    rwa [hthread] at hself
  | some thread =>
    have htext : route.threadText = thread.val := by
      rw [SlackRoute.threadText, hthread]
      rfl
    obtain ⟨hcomponent, -⟩ := hcomponents thread.val (by simp [SlackRoute.components, hthread])
    have hne : thread.val.toList ≠ ['_'] := by
      intro heq
      rw [heq] at hcomponent
      cases hcomponent
    rw [htext, if_neg (by simp [hchannel, hcomponent]), if_neg hne, String.ofList_toList,
      String.ofList_toList]
    have hself := route.validate_self
    rwa [hthread] at hself

/-- A target of the current format is the one of the route that is decoded from it. -/
theorem encode_decoded {redact : Redaction} {route : SlackRoute} {target target' : String}
    (hcurrent : "slack-v1:".toList <+: target.toList)
    (h : decodeSlackRouteTarget target = .ok route)
    (h' : encodeSlackRouteTarget redact route = .ok target') : target' = target := by
  obtain ⟨channel, thread, htarget, hcolon⟩ := decodeSlackRouteTarget_parts hcurrent h
  rw [decodeSlackRouteTarget_current htarget hcolon] at h
  split_ifs at h with hinvalid hnothread
  · push Not at hinvalid
    obtain ⟨hval, hthread⟩ := SlackRoute.validate_components h
      (by rw [String.toList_ofList]; exact hinvalid.1) (by simp)
    obtain ⟨-, -, rfl⟩ := encodeSlackRouteTarget_ok.1 h'
    refine String.toList_injective ?_
    rw [toList_encoded, htarget, SlackRoute.threadText, hthread, hval, String.toList_ofList,
      hnothread, Option.getD_none, String.toList_ofList]
    rfl
  · push Not at hinvalid
    have hcomponent := hinvalid.2 hnothread
    obtain ⟨hval, hthread⟩ := SlackRoute.validate_components h
      (by rw [String.toList_ofList]; exact hinvalid.1)
      (by rintro t ⟨rfl⟩; rw [String.toList_ofList]; exact hcomponent)
    obtain ⟨-, -, rfl⟩ := encodeSlackRouteTarget_ok.1 h'
    refine String.toList_injective ?_
    rw [toList_encoded, htarget, SlackRoute.threadText, hthread, hval, String.toList_ofList,
      Option.getD_some, String.toList_ofList, String.toList_ofList]

/-- Every route that can be encoded is decoded from its target, which no other route has; and a
target of the current format is the one of the route decoded from it. -/
theorem slackRouteTargets (redact : Redaction) :
    (∀ route target, encodeSlackRouteTarget redact route = .ok target →
      decodeSlackRouteTarget target = .ok route) ∧
    (∀ route route' target, encodeSlackRouteTarget redact route = .ok target →
      encodeSlackRouteTarget redact route' = .ok target → route' = route) ∧
    ∀ target route target', "slack-v1:".toList <+: target.toList →
      decodeSlackRouteTarget target = .ok route →
      encodeSlackRouteTarget redact route = .ok target' → target' = target := by
  refine ⟨fun _ _ h => decode_encoded h, fun route route' target h h' => ?_,
    fun _ _ _ => encode_decoded⟩
  have hroute := (decode_encoded h').symm.trans (decode_encoded h)
  exact Except.ok.inj hroute

namespace Sample

def threadRoute : SlackRoute where
  channel := ⟨"C123", by decide⟩
  threadTs := some ⟨"1700.25", by decide⟩

end Sample

open Sample in
/-- A route with a thread, whose components the redaction leaves as they are. -/
theorem slackRouteTargets_sample :
    decodeSlackRouteTarget "slack-v1:C123:1700.25" = .ok threadRoute :=
  (slackRouteTargets fun _ text => text).1 threadRoute _ (by decide)

end AIHub
