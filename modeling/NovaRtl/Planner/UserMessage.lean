import NovaRtl.Planner.Redaction
import NovaRtl.Text.JsonLines

/-!
# The message for the model

The user message holds the common envelope and the private evidence between delimiter lines. Both
are written as canonical JSON, one line each, whatever texts they hold; so the delimiters are where
`build_context` puts them and nowhere else, and the message can be read back.
-/

namespace NovaRtl.Planner

open Text Json

variable {φ : Type} {F : Floats φ} {lower : String → String}
  {hashRecord : RetrievalPayload → HashRef}

/-- The five lines of the user message. -/
def userLines (common evidence : String) : List (List Char) :=
  ["COMMON_SAFETY_ENVELOPE".toList, common.toList, "BEGIN_UNTRUSTED_EVIDENCE".toList,
    evidence.toList, "END_UNTRUSTED_EVIDENCE".toList]

theorem toList_parts (first common middle evidence last : String) :
    (first ++ common ++ middle ++ evidence ++ last).toList = first.toList ++ common.toList ++
      middle.toList ++ evidence.toList ++ last.toList := by
  simp only [String.toList_append]

theorem intercalate_lines (first middle last common evidence : List Char) :
    ['\n'].intercalate [first, common, middle, evidence, last] =
      first ++ ['\n'] ++ common ++ (['\n'] ++ (middle ++ ['\n'])) ++ evidence ++
        (['\n'] ++ last) := by
  simp only [List.intercalate_cons_cons, List.intercalate_singleton, List.append_assoc]

theorem toList_userContent (common evidence : String) :
    (userContent common evidence).toList = ['\n'].intercalate (userLines common evidence) := by
  have hfirst : "COMMON_SAFETY_ENVELOPE\n".toList =
      "COMMON_SAFETY_ENVELOPE".toList ++ ['\n'] := by decide +kernel
  have hmiddle : "\nBEGIN_UNTRUSTED_EVIDENCE\n".toList =
      ['\n'] ++ ("BEGIN_UNTRUSTED_EVIDENCE".toList ++ ['\n']) := by decide +kernel
  have hlast : "\nEND_UNTRUSTED_EVIDENCE".toList =
      ['\n'] ++ "END_UNTRUSTED_EVIDENCE".toList := by decide +kernel
  rw [userLines, intercalate_lines, ← hfirst, ← hmiddle, ← hlast]
  exact toList_parts _ common _ evidence _

/-- Texts without line feeds stay the lines they are. -/
theorem splitOn_userContent {common evidence : String} (hcommon : '\n' ∉ common.toList)
    (hevidence : '\n' ∉ evidence.toList) :
    (userContent common evidence).toList.splitOn '\n' = userLines common evidence := by
  rw [toList_userContent]
  refine List.splitOn_intercalate '\n' (fun line hline => ?_) (List.cons_ne_nil _ _)
  simp only [userLines, List.mem_cons, List.not_mem_nil, or_false] at hline
  obtain rfl | rfl | rfl | rfl | rfl := hline
  · decide
  · exact hcommon
  · decide
  · exact hevidence
  · decide

/-- A user message shows two values: split at line feeds it is five lines, with the delimiters at
fixed places, and the lines between them read as the values. The order of keys does not count in a
mapping, so a value is read with its keys sorted. -/
def Shows (F : Floats φ) (content : String) (envelope evidence : Json φ) : Prop :=
  ∃ common private' : String,
    content.toList.splitOn '\n' = userLines common private' ∧
      Json.read F common = some (sortKeys envelope) ∧
      Json.read F private' = some (sortKeys evidence)

theorem shows_userContent {envelope evidence : Json φ} {common private' : String}
    (hcommon : dumps F envelope = some common) (hevidence : dumps F evidence = some private') :
    Shows F (userContent common private') envelope evidence :=
  ⟨common, private',
    splitOn_userContent (newline_notMem_dumps hcommon) (newline_notMem_dumps hevidence),
    read_dumps hcommon, read_dumps hevidence⟩

/-- A message shows one pair of values. -/
theorem Shows.unique {content : String} {envelope evidence envelope' evidence' : Json φ}
    (h : Shows F content envelope evidence) (h' : Shows F content envelope' evidence') :
    sortKeys envelope = sortKeys envelope' ∧ sortKeys evidence = sortKeys evidence' := by
  obtain ⟨common, private', hlines, hcommon, hprivate⟩ := h
  obtain ⟨common', private'', hlines', hcommon', hprivate'⟩ := h'
  rw [hlines] at hlines'
  simp only [userLines, List.cons.injEq, String.toList_inj, true_and, and_true] at hlines'
  obtain ⟨rfl, rfl⟩ := hlines'
  rw [hcommon] at hcommon'
  rw [hprivate] at hprivate'
  exact ⟨Option.some.inj hcommon', Option.some.inj hprivate'⟩

/-! ## The messages of `build_context` -/

/-- The objects of the private evidence, as the provider stores them. -/
def storedEvidence (provider : InMemoryEvidenceProvider F) (request : ContextRequest) :
    List (EvidenceObject F) :=
  request.privateEvidenceIds.filterMap fun id => provider.object? id.val

theorem eq_storedEvidence {provider : InMemoryEvidenceProvider F} {request : ContextRequest}
    {items : List (EvidenceObject F)} (h : List.Forall₂ (Passes provider (contextFetch request))
      (request.privateEvidenceIds.map Subtype.val) items) :
    items = storedEvidence provider request := by
  unfold storedEvidence
  generalize request.privateEvidenceIds = ids at h ⊢
  induction ids generalizing items with
  | nil => cases h; rfl
  | cons id ids ih =>
    obtain ⟨item, rest, hitem, hrest, rfl⟩ := List.forall₂_cons_left_iff.mp h
    have hstored : provider.object? id.val = some item := hitem.stored
    rw [ih hrest, List.filterMap_cons, hstored]

section Runs

variable {provider : InMemoryEvidenceProvider F} {envelope : List (String × Json φ)}
  {request : ContextRequest} {plannerRequest : PlannerRequest} {audit : AuditLog}
  {messages : List Message}

/-- A context that is rendered shows the envelope and the redacted evidence. -/
theorem shows_of_messagesOf
    (h : messagesOf lower hashRecord provider envelope request plannerRequest audit =
      some messages) :
    ∃ content, messages = [⟨.system, systemContent⟩, ⟨.user, content⟩] ∧
      Shows F content (.obj envelope)
        (privateJson F lower request (storedEvidence provider request)) := by
  unfold messagesOf at h
  split at h
  next rendered after hrendered =>
    obtain ⟨items, hitems, common, evidence, hcommon, hevidence, hmessages⟩ :=
      renderContext_ok hrendered
    rw [← eq_storedEvidence hitems, ← Option.some.inj h, hmessages]
    exact ⟨_, rfl, shows_userContent hcommon hevidence⟩
  next => cases h

/-- The user message is five lines with the delimiters in place, it can be read back, and contexts
with the same user message have the same envelope and the same redacted evidence. -/
theorem user_message_faithful
    (h : messagesOf lower hashRecord provider envelope request plannerRequest audit =
      some messages) :
    ∃ content, messages = [⟨.system, systemContent⟩, ⟨.user, content⟩] ∧
      Shows F content (.obj envelope)
        (privateJson F lower request (storedEvidence provider request)) ∧
      ∀ (provider' : InMemoryEvidenceProvider F) (envelope' : List (String × Json φ))
        (request' : ContextRequest) (plannerRequest' : PlannerRequest) (audit' : AuditLog)
        (messages' : List Message),
        messagesOf lower hashRecord provider' envelope' request' plannerRequest' audit' =
          some messages' → ⟨.user, content⟩ ∈ messages' →
        sortKeys (.obj envelope) = sortKeys (.obj envelope') ∧
          sortKeys (privateJson F lower request (storedEvidence provider request)) =
            sortKeys (privateJson F lower request' (storedEvidence provider' request')) := by
  obtain ⟨content, hmessages, hshows⟩ := shows_of_messagesOf h
  refine ⟨content, hmessages, hshows, ?_⟩
  intro provider' envelope' request' plannerRequest' audit' messages' h' hmem
  obtain ⟨content', rfl, hshows'⟩ := shows_of_messagesOf h'
  simp only [List.mem_cons, Message.mk.injEq, reduceCtorEq, false_and, true_and, false_or,
    List.not_mem_nil, or_false] at hmem
  subst hmem
  exact hshows.unique hshows'

end Runs

/-- The context of a span is rendered, with an API key in its payload. -/
theorem user_message_faithful_keyA :
    ∃ (tokenBudget : ℕ) (h : 0 < tokenBudget) (content : String),
      Shows noFloats content (.obj secretEnvelope) (privateJson noFloats asciiLower
        (secretRequest tokenBudget h)
        (storedEvidence (secretProvider keyA) (secretRequest tokenBudget h))) := by
  obtain ⟨tokenBudget, h, packA, -, afterA, -, hA, -⟩ := secretRuns
  obtain ⟨rendered, middle, hrendered⟩ := buildContext_ok hA
  have hmessages : messagesOf asciiLower hashOfRecord (secretProvider keyA) secretEnvelope
      (secretRequest tokenBudget h) (secretPlannerRequest tokenBudget h) [] =
        some rendered.messages := by
    rw [messagesOf, hrendered]
  obtain ⟨content, -, hshows, -⟩ := user_message_faithful hmessages
  exact ⟨tokenBudget, h, content, hshows⟩

end NovaRtl.Planner
