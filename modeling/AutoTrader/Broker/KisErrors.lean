/-
  AutoTrader/Broker/KisErrors.lean
  ================================
  **What an error of the broker shows.**

  An answer that is an error carries up to four texts of its payload into a
  `KisHttpError`.  From each of them the credentials are taken out first, one after the
  other, and the rest is cut to 300 characters.  None of the credentials is left in any
  text, however they overlap and wherever the cut falls (`details_redacted`).
-/
import AutoTrader.Lib.Redaction
import AutoTrader.Python.Json

namespace AutoTrader

/-! ### Taking the secrets out -/

namespace Text

/-- `text.replace(old, new)` for an `old` that is not empty. -/
def replace (text old new : String) : String :=
  String.ofList (Redaction.replace old.toList new.toList text.toList)

end Text

/-- `value` with every secret that is not empty replaced, cut to 300 characters. -/
def safeValue (secrets : List String) (value : String) : String :=
  let safe := secrets.foldl
    (fun safe secret => if secret = "" then safe else Text.replace safe secret "[redacted]") value
  String.ofList (safe.toList.take 300)

/-- The keys that are shown. -/
def shownKeys : List String := ["rt_cd", "msg_cd", "msg1", "error_description"]

/-- One key of the loop: a missing value, a null and an empty text are left out. -/
def addDetail (json : JsonModule) (secrets : List String) (payload : List (String × Json))
    (details : List (String × String)) (key : String) : Except Exn (List (String × String)) :=
  match Json.field? payload key with
  | none | some .null | some (.text "") => .ok details
  | some value => (json.str value).map fun text => details ++ [(key, safeValue secrets text)]

/-- The `details` of an error. -/
def errorDetails (json : JsonModule) (secrets : List String) (payload : List (String × Json)) :
    Except Exn (List (String × String)) :=
  shownKeys.foldlM (addDetail json secrets payload) []

/-! ### The answers -/

/-- An answer of the broker; `json` is what `response.json()` returns or raises. -/
structure KisResponse where
  statusCode : Int
  json : Except Exn Json
  headers : List (String × String)

/-- The exceptions of `response.json()` that are caught: a `ValueError` (`JSONDecodeError` is one),
    a `TypeError` and an `AttributeError`. -/
def unreadable : Exn → Bool
  | .valueError _ | .typeError _ => true
  | .other name _ => ["JSONDecodeError", "UnicodeDecodeError", "AttributeError"].contains name
  | _ => false

/-- `_raise_for_kis_response`; below 400 `raise_for_status()` raises nothing. -/
def raiseForKisResponse (json : JsonModule) (response : KisResponse) (secrets : List String) :
    Except Exn Unit :=
  if response.statusCode < 400 then .ok ()
  else do
    let details ← match response.json with
      | .ok (.dict payload) => errorDetails json secrets payload
      | .ok _ => .ok []
      | .error e => if unreadable e then .ok [] else .error e
    .error (.kisHttpError response.statusCode details)

/-- `payload.get(key, missing)` as a text. -/
def fieldText (json : JsonModule) (payload : List (String × Json)) (key missing : String) :
    Except Exn String :=
  match Json.field? payload key with
  | none => .ok missing
  | some value => json.str value

/-- `_payload` of the order-status client. -/
def orderStatusPayload (json : JsonModule) (response : KisResponse) (secrets : List String) :
    Except Exn (List (String × Json)) := do
  raiseForKisResponse json response secrets
  match response.json with
  | .error e =>
    if unreadable e then .error (.other "RuntimeError" "KIS response was not valid JSON") else .error e
  | .ok (.dict payload) => do
    if (← fieldText json payload "rt_cd" "1") = "0" then .ok payload
    else do
      let details ← errorDetails json secrets payload
      .error (.kisHttpError response.statusCode details)
  | .ok _ => .error (.other "RuntimeError" "KIS response was not an object")

/-! ### No secret is shown -/

/-- `"[redacted]"`. -/
def redactedMark : Redaction.Marker Char := ⟨'[', "redacted".toList, ']'⟩

/-- A secret without a bracket that is no part of the word "redacted". -/
structure Redactable (secret : String) : Prop where
  nonempty : secret ≠ ""
  no_left : '[' ∉ secret.toList
  no_right : ']' ∉ secret.toList
  not_part : ¬ secret.toList <:+: "redacted".toList

theorem Redactable.foreign {secret : String} (h : Redactable secret) : redactedMark.Foreign secret.toList where
  ne_nil := fun hnil => h.nonempty (String.toList_inj.mp hnil)
  left_notMem := h.no_left
  right_notMem := h.no_right
  not_inner := h.not_part

/-- The loop over the secrets, on the letters. -/
theorem replaceAll_toList (secrets : List String) (value : String) :
    (secrets.foldl (fun safe secret => if secret = "" then safe else Text.replace safe secret "[redacted]")
      value).toList = Redaction.redact redactedMark (secrets.map String.toList) value.toList := by
  have hmark : "[redacted]".toList = redactedMark.word := by decide
  induction secrets generalizing value with
  | nil => rfl
  | cons secret rest ih =>
    rw [List.foldl_cons, ih, List.map_cons, Redaction.redact, Redaction.redact, List.foldl_cons]
    congr 1
    by_cases hempty : secret = ""
    · subst hempty
      rfl
    · have hletters : secret.toList ≠ [] := fun hnil => hempty (String.toList_inj.mp hnil)
      rw [if_neg hempty, if_neg hletters, Text.replace, String.toList_ofList, hmark]

/-- A redactable secret occurs in no safe value. -/
theorem not_infix_safeValue {secret : String} (hsecret : Redactable secret) {secrets : List String}
    (hmem : secret ∈ secrets) (value : String) : ¬ secret.toList <:+: (safeValue secrets value).toList := by
  intro h
  rw [safeValue, String.toList_ofList, replaceAll_toList] at h
  have hwhole := h.trans (List.take_prefix 300 _).isInfix
  exact Redaction.not_infix_redact hsecret.foreign (List.mem_map_of_mem hmem) value.toList hwhole

/-- Every value among the details is a safe value. -/
theorem safe_of_errorDetails {json : JsonModule} {secrets : List String} {payload : List (String × Json)}
    {details : List (String × String)} (h : errorDetails json secrets payload = .ok details) :
    ∀ entry ∈ details, ∃ text, entry.2 = safeValue secrets text := by
  have hstep : ∀ (keys : List String) (before after : List (String × String)),
      keys.foldlM (addDetail json secrets payload) before = .ok after →
      (∀ entry ∈ before, ∃ text, entry.2 = safeValue secrets text) →
      ∀ entry ∈ after, ∃ text, entry.2 = safeValue secrets text := by
    intro keys
    induction keys with
    | nil =>
      intro before after hrun hbefore
      cases hrun
      exact hbefore
    | cons key rest ih =>
      intro before after hrun hbefore
      rw [List.foldlM_cons] at hrun
      obtain ⟨between, hkey, hrest⟩ := Except.bind_eq_ok hrun
      refine ih between after hrest ?_
      unfold addDetail at hkey
      split at hkey
      · cases hkey
        exact hbefore
      · cases hkey
        exact hbefore
      · cases hkey
        exact hbefore
      · rename_i value _ _ _
        cases htext : json.str value with
        | error e =>
          rw [htext] at hkey
          cases hkey
        | ok text =>
          rw [htext] at hkey
          cases hkey
          intro entry hentry
          rcases List.mem_append.mp hentry with hentry | hentry
          · exact hbefore entry hentry
          · rw [List.mem_singleton.mp hentry]
            exact ⟨text, rfl⟩
  exact hstep shownKeys [] details h fun entry hentry => absurd hentry List.not_mem_nil

/-- **No credential is shown.**  In the details built from a payload no redactable secret
    occurs in any value; both errors carry exactly these details. -/
theorem details_redacted (json : JsonModule) {secrets : List String} {payload : List (String × Json)}
    {details : List (String × String)} (h : errorDetails json secrets payload = .ok details) :
    (∀ secret ∈ secrets, Redactable secret → ∀ entry ∈ details, ¬ secret.toList <:+: entry.2.toList) ∧
    (∀ response : KisResponse, response.json = .ok (.dict payload) → 400 ≤ response.statusCode →
      raiseForKisResponse json response secrets = .error (.kisHttpError response.statusCode details)) ∧
    (∀ response : KisResponse, response.json = .ok (.dict payload) → response.statusCode < 400 →
      (∃ code, fieldText json payload "rt_cd" "1" = .ok code ∧ code ≠ "0") →
      orderStatusPayload json response secrets = .error (.kisHttpError response.statusCode details)) := by
  refine ⟨?_, ?_, ?_⟩
  · intro secret hmem hsecret entry hentry
    obtain ⟨text, htext⟩ := safe_of_errorDetails h entry hentry
    rw [htext]
    exact not_infix_safeValue hsecret hmem text
  · intro response hjson hstatus
    rw [raiseForKisResponse, if_neg (not_lt.mpr hstatus), hjson]
    simp only [h, Bind.bind, Except.bind]
  · rintro response hjson hstatus ⟨code, hcode, hne⟩
    rw [orderStatusPayload, raiseForKisResponse, if_pos hstatus, hjson]
    simp only [hcode, h, Bind.bind, Except.bind, if_neg hne]

/-! ### Secrets that overlap -/

namespace NestedSecrets

def json : JsonModule where
  loads _ := .error (.other "JSONDecodeError" "Expecting value")
  dumps _ := .error (.typeError "not serializable")
  str
    | .text s => .ok s
    | .int n => .ok (toString n)
    | _ => .error (.typeError "not shown")

/-- The one secret is part of the other, which overlaps itself in the message. -/
def secrets : List String := ["", "aba", "ab"]

def payload : List (String × Json) :=
  [("rt_cd", .text "1"), ("msg1", .text "denied for ababab"), ("msg_cd", .text ""), ("other", .int 1)]

def details : List (String × String) :=
  [("rt_cd", "1"), ("msg1", "denied for [redacted]b[redacted]")]

theorem details_built : errorDetails json secrets payload = .ok details :=
  Except.eq_ok_of_toOption (by decide +kernel)

theorem nested_secrets_redacted :
    (∀ entry ∈ details, ¬ "aba".toList <:+: entry.2.toList) ∧
      (∀ entry ∈ details, ¬ "ab".toList <:+: entry.2.toList) := by
  obtain ⟨hclean, -, -⟩ := details_redacted json details_built
  exact ⟨hclean "aba" (by decide) ⟨by decide, by decide, by decide, by decide⟩,
    hclean "ab" (by decide) ⟨by decide, by decide, by decide, by decide⟩⟩

end NestedSecrets

end AutoTrader
