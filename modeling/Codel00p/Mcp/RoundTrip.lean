import Codel00p.Mcp.JsonRpc

/-! Messages read back from the lines they are written to. -/

namespace Codel00p.Mcp

theorem JsonRpcId.fromJson_toJson (id : JsonRpcId) : JsonRpcId.fromJson id.toJson = some id := by
  cases id <;> rfl

/-- A message comes back as it was, but a result or an error that is null comes back as none. -/
theorem JsonRpcMessage.fromJson_toJson_eq_iff {message : JsonRpcMessage} (typed : ∀ value, message ≠ .raw value) :
    JsonRpcMessage.fromJson message.toJson = message ↔
      ∀ response, message = .response response → response.result ≠ some .null ∧ response.error ≠ some .null := by
  cases message with
  | raw value => exact absurd rfl (typed value)
  | request asked =>
    simp [toJson, JsonRpcMessage.fromJson, JsonRpcRequest.fromJson, structFields, JsonRpcId.fromJson_toJson,
      List.lookup_cons]
  | notification told =>
    simp [toJson, JsonRpcMessage.fromJson, JsonRpcRequest.fromJson, JsonRpcNotification.fromJson, structFields,
      List.lookup_cons]
  | response answered =>
    obtain ⟨jsonrpc, id, result, error⟩ := answered
    have kept : ∀ field : Option Json, presentField field = field ↔ field ≠ some .null := by
      intro field
      cases field with
      | none => simp [presentField]
      | some value => cases value <;> simp [presentField, Json.isNull, Option.filter]
    have read : JsonRpcMessage.fromJson (toJson (.response { jsonrpc, id, result, error })) =
        .response { jsonrpc, id, result := presentField result, error := presentField error } := by
      cases result <;> cases error <;>
        simp [toJson, JsonRpcMessage.fromJson, JsonRpcRequest.fromJson, JsonRpcNotification.fromJson,
          JsonRpcResponse.fromJson, structFields, optionalField, JsonRpcId.fromJson_toJson, List.lookup_cons]
    rw [read]
    simp [kept]

theorem trimBreaks_line {text : List Char} (plain : text.any isLineBreak = false) :
    trimBreaks (text ++ ['\n']) = text := by
  have none : text.reverse.dropWhile isLineBreak = text.reverse := by
    cases reversed : text.reverse with
    | nil => rfl
    | cons c rest =>
      have member : c ∈ text := by
        rw [← List.mem_reverse, reversed]
        exact List.mem_cons_self
      rw [List.dropWhile_cons_of_neg (by simpa using List.any_eq_false.1 plain c member)]
  rw [trimBreaks, List.reverse_append, List.reverse_singleton, List.singleton_append,
    List.dropWhile_cons_of_pos rfl, none, List.reverse_reverse]

/-- A message is written to one line, which gives it back exactly if it is no response with a null result or error, as
long as the text of its JSON value has no line breaks and gives that value back. -/
theorem stdio_round_trip_iff (codec : McpCodec) (message : JsonRpcMessage) (typed : ∀ value, message ≠ .raw value)
    (plain : (codec.render message.toJson).toList.any isLineBreak = false)
    (readable : codec.parse (codec.render message.toJson) = some message.toJson) :
    ∃ text, encodeStdioMessage codec message = .ok (text ++ "\n") ∧ text.toList.any isLineBreak = false ∧
      (decodeStdioMessage codec (text ++ "\n") = .ok message ↔
        ∀ response, message = .response response → response.result ≠ some .null ∧ response.error ≠ some .null) := by
  refine ⟨codec.render message.toJson, ?_, plain, ?_⟩
  · simp [encodeStdioMessage, plain]
  · rw [← JsonRpcMessage.fromJson_toJson_eq_iff typed, decodeStdioMessage, decodeStdioValue, String.toList_append,
      show "\n".toList = ['\n'] from rfl, trimBreaks_line plain]
    simp [plain, readable, Except.map]

/-- A response to the first request. -/
def answering (result : Json) : JsonRpcMessage := .response { id := .number 1, result := some result }

/-- Texts that stand for one message. -/
def messageCodec (message : JsonRpcMessage) : McpCodec :=
  { parse := fun _ => some message.toJson, render := fun _ => "message", invalid := id }

theorem answer_round_trip : ∃ text,
    encodeStdioMessage (messageCodec (answering (.bool true))) (answering (.bool true)) = .ok (text ++ "\n") ∧
      text.toList.any isLineBreak = false ∧
      (decodeStdioMessage (messageCodec (answering (.bool true))) (text ++ "\n") = .ok (answering (.bool true)) ↔
        ∀ response, answering (.bool true) = .response response →
          response.result ≠ some .null ∧ response.error ≠ some .null) :=
  stdio_round_trip_iff _ _ nofun (by decide) rfl

/-- A null result is read back as no result. -/
theorem null_result_lost : (encodeStdioMessage (messageCodec (answering .null)) (answering .null)).bind
    (decodeStdioMessage (messageCodec (answering .null))) ≠ .ok (answering .null) := by
  have read : (encodeStdioMessage (messageCodec (answering .null)) (answering .null)).bind
      (decodeStdioMessage (messageCodec (answering .null))) = .ok (.response { id := .number 1 }) := rfl
  rw [read]
  nofun

end Codel00p.Mcp
