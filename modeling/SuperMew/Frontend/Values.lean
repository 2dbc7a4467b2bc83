import Mathlib.Algebra.Order.Ring.Rat
import SuperMew.Core.Errors

/-! The values that the browser reads out of events, and the errors it shows. -/

namespace SuperMew.Frontend

/-- What `JSON.parse` makes of the text of a nested value. -/
inductive Nested where
  | number (q : ℚ)
  | list (items : List Json)
  | record (entries : Dict)

/-- Functions of the browser: `JSON.parse` of a nested value, `String` of a nested value and
`Date.parse` in milliseconds, undefined where it is `NaN`. -/
class Browser where
  parse : String → Nested
  display : Nested → String
  parseDate : String → Option ℚ

/-! ## Values -/

/-- `value ?? other`. -/
def orElse (value other : Option Json) : Option Json :=
  match value with
  | none | some .null => other
  | some v => some v

/-- The characters removed by `trim()`. -/
def isJsSpace (c : Char) : Bool :=
  let n := c.toNat
  (9 ≤ n && n ≤ 13) || n == 32 || n == 0xa0 || n == 0x1680 || (0x2000 ≤ n && n ≤ 0x200a) ||
    n == 0x2028 || n == 0x2029 || n == 0x202f || n == 0x205f || n == 0x3000 || n == 0xfeff

def trim (s : String) : String :=
  String.ofList (((s.toList.dropWhile isJsSpace).reverse.dropWhile isJsSpace).reverse)

def codeUnits (c : Char) : ℕ := if 0x10000 ≤ c.toNat then 2 else 1

/-- `text.slice(0, maximum)` in code units; half a pair is dropped. -/
def sliceChars : ℕ → List Char → List Char
  | _, [] => []
  | maximum, c :: cs =>
    if codeUnits c ≤ maximum then c :: sliceChars (maximum - codeUnits c) cs else []

def slice (maximum : ℕ) (s : String) : String := String.ofList (sliceChars maximum s.toList)

def safeString : Option Json → Option String
  | some (.str s) => if trim s ≠ "" then some (trim s) else none
  | _ => none

section

variable [Browser]

def asRecord : Option Json → Option Dict
  | some (.other text) =>
    match Browser.parse text with
    | .record entries => some entries
    | _ => none
  | _ => none

def asList : Option Json → List Json
  | some (.other text) =>
    match Browser.parse text with
    | .list items => items
    | _ => []
  | _ => []

def asNumber : Option Json → Option ℚ
  | some (.int n) => some n
  | some (.other text) =>
    match Browser.parse text with
    | .number q => some q
    | _ => none
  | _ => none

def safeInteger (value : Option Json) : Option ℤ :=
  (asNumber value).bind fun q => if q.den = 1 ∧ 0 < q then some q.num else none

def safeNonNegativeInteger (value : Option Json) : Option ℤ :=
  (asNumber value).bind fun q => if q.den = 1 ∧ 0 ≤ q then some q.num else none

/-- `String(value)`. -/
def textOf : Json → String
  | .null => "null"
  | .bool true => "true"
  | .bool false => "false"
  | .int n => toString n
  | .str s => s
  | .other text => Browser.display (Browser.parse text)

end

/-! ## Public errors -/

structure PublicErrorInfo where
  code : String
  message : String
  retryable : Bool
  category : Option String := none
  stage : Option String := none
  provider : Option String := none
  retryAfterSeconds : Option ℚ := none
  requestId : Option String := none
  deriving DecidableEq, Repr

/-- The defaults that the reducer passes. -/
structure ErrorDefaults where
  code : Option String := none
  retryable : Option Bool := none
  category : Option String := none
  stage : Option String := none

def isErrorCode (code : String) : Bool :=
  let upper := fun c : Char => 'A' ≤ c && c ≤ 'Z'
  match code.toList with
  | [] => false
  | c :: cs => upper c && cs.length ≤ 63 &&
      cs.all fun d => upper d || ('0' ≤ d && d ≤ '9') || d == '_'

def webErrorMessages : List (String × String) :=
  [("WEB_SEARCH_UNAVAILABLE", "网络搜索请求失败，未能获取本次搜索结果"),
    ("WEB_FETCH_UNAVAILABLE", "网页内容提取失败，未能获取本次来源内容"),
    ("WEB_INVALID_SEARCH_RESPONSE", "网络搜索服务返回了无法解析的结果"),
    ("WEB_INVALID_EXTRACT_RESPONSE", "网页内容提取服务返回了无法解析的结果"),
    ("WEB_INVALID_CONTENT", "网页内容无效，无法作为回答依据"),
    ("WEB_DEADLINE_EXCEEDED", "本次网络检索已达到运行时限"),
    ("WEB_RESEARCH_DISABLED", "网络检索能力尚未启用"),
    ("WEB_RESEARCH_CLOSED", "网络检索服务已关闭"),
    ("WEB_RESEARCH_NOT_STARTED", "网络检索服务尚未启动"),
    ("WEB_RESEARCH_RUNTIME_NOT_CONFIGURED", "网络检索服务尚未配置"),
    ("WEB_INVALID_INPUT", "网络检索参数无效，请调整查询"),
    ("WEB_INPUT_TOO_LARGE", "网络检索输入过长，请缩小查询范围"),
    ("WEB_OUTPUT_TOO_LARGE", "网络检索结果超过大小限制"),
    ("WEB_INVALID_EVIDENCE", "网络检索证据无效，无法作为回答依据"),
    ("WEB_INVALID_SOURCE_ID", "网络来源编号格式无效"),
    ("WEB_SOURCE_NOT_FOUND", "该网络来源不属于本次运行或已失效"),
    ("WEB_SOURCE_UNKNOWN", "回答引用了本次运行中未知的网络来源"),
    ("WEB_SOURCE_CONTEXT_CLOSED", "本次运行的网络来源上下文已关闭"),
    ("WEB_SOURCE_LIMIT", "本次运行的网络来源数量已达到上限"),
    ("WEB_SOURCE_INVALID_CONTENT", "网络来源内容无效，无法作为回答依据"),
    ("WEB_FETCH_BUDGET_EXHAUSTED", "本次运行的网页提取额度已用完，请基于已有结果回答")]

def defaultMessages : List (String × String) :=
  webErrorMessages ++
    [("INVALID_REQUEST", "请求参数不正确，请检查后重试"),
      ("AUTHENTICATION_REQUIRED", "登录已过期，请重新登录"),
      ("PERMISSION_DENIED", "当前账号无权执行此操作"),
      ("NOT_FOUND", "请求的资源不存在"),
      ("CONFLICT", "当前状态已发生变化，请刷新后重试"),
      ("RATE_LIMITED", "请求过于频繁，请稍后重试"),
      ("MODEL_RATE_LIMITED", "上游模型服务当前繁忙，请稍后重试"),
      ("MODEL_TIMEOUT", "上游模型响应超时，请稍后重试"),
      ("MODEL_UNAVAILABLE", "模型服务暂时不可用，请稍后重试"),
      ("MODEL_CALL_LIMIT_EXCEEDED", "模型调用次数达到本次运行上限，请缩小问题范围后重试"),
      ("EMBEDDING_UNAVAILABLE", "向量化服务暂时不可用，请稍后重试"),
      ("VECTOR_STORE_UNAVAILABLE", "知识检索服务暂时不可用，请稍后重试"),
      ("RERANK_TIMEOUT", "相关性排序服务响应超时"),
      ("RERANK_RATE_LIMITED", "相关性排序服务当前繁忙，请稍后重试"),
      ("RERANK_UNAVAILABLE", "相关性排序服务暂时不可用，已使用原始排序"),
      ("TOOL_TIMEOUT", "工具执行超时，请稍后重试"),
      ("TOOL_UNAVAILABLE", "工具服务暂时不可用，请稍后重试"),
      ("PROVIDER_TIMEOUT", "运行截止时间已到，已停止等待上游服务"),
      ("PROVIDER_AUTHENTICATION_FAILED", "上游服务配置不可用，请联系管理员"),
      ("PROVIDER_REQUEST_INVALID", "上游服务拒绝了当前请求，请联系管理员"),
      ("WEB_TOOL_RESULT_CONTEXT_BUDGET_EXCEEDED", "搜索结果超过上下文预算，请缩小搜索范围后重试"),
      ("CONTEXT_TRIMMED", "已自动整理较早上下文以继续运行"),
      ("POLICY_DENIED", "当前操作被安全策略拒绝"),
      ("TOOL_POLICY_DENIED", "当前工具不在本次运行的可用范围内"),
      ("TOOL_GUARDRAIL_DENIED", "当前工具调用未通过安全策略"),
      ("TOOL_APPROVAL_REQUIRED", "当前工具需要人工批准后才能执行"),
      ("RUN_CANCELLED", "运行已取消"),
      ("REQUEST_CANCELLED", "请求已取消"),
      ("REQUEST_TIMEOUT", "请求超时，请稍后重试"),
      ("NETWORK_UNAVAILABLE", "无法连接服务，请检查网络后重试"),
      ("STREAM_PROTOCOL_ERROR", "服务返回了无法识别的事件流，请刷新后重试"),
      ("RUN_EXECUTION_FAILED", "运行失败，请稍后重试"),
      ("TOOL_EXECUTION_FAILED", "工具执行失败"),
      ("INTERNAL_ERROR", "服务暂时不可用，请稍后重试")]

def providerCodes : List String :=
  ["MODEL_RATE_LIMITED", "MODEL_TIMEOUT", "MODEL_UNAVAILABLE", "EMBEDDING_UNAVAILABLE",
    "VECTOR_STORE_UNAVAILABLE", "RERANK_TIMEOUT", "RERANK_RATE_LIMITED", "RERANK_UNAVAILABLE",
    "TOOL_TIMEOUT", "TOOL_UNAVAILABLE", "PROVIDER_TIMEOUT", "PROVIDER_AUTHENTICATION_FAILED",
    "PROVIDER_REQUEST_INVALID"]

def fixedClientMessageCodes : List String :=
  webErrorMessages.map Prod.fst ++
    ["WEB_TOOL_RESULT_CONTEXT_BUDGET_EXCEEDED", "CONTEXT_TRIMMED", "TOOL_POLICY_DENIED",
      "TOOL_GUARDRAIL_DENIED", "TOOL_APPROVAL_REQUIRED"]

def retryableCodes : List String :=
  ["RATE_LIMITED", "MODEL_RATE_LIMITED", "MODEL_TIMEOUT", "MODEL_UNAVAILABLE",
    "EMBEDDING_UNAVAILABLE", "VECTOR_STORE_UNAVAILABLE", "RERANK_TIMEOUT", "RERANK_RATE_LIMITED",
    "RERANK_UNAVAILABLE", "TOOL_TIMEOUT", "TOOL_UNAVAILABLE", "REQUEST_TIMEOUT",
    "NETWORK_UNAVAILABLE", "RUN_EXECUTION_FAILED", "INTERNAL_ERROR"]

def publicErrorMessage (code : String) : String :=
  (defaultMessages.lookup code).getD "服务暂时不可用，请稍后重试"

/-- `safeString(value, maximum)` of the module of public errors. -/
def safeText (value : Option Json) (maximum : ℕ) : Option String :=
  (safeString value).map (slice maximum)

def normalizePublicErrorInfo [Browser] (outer : Dict) (defaults : ErrorDefaults) :
    PublicErrorInfo :=
  let source := (asRecord (outer.get? "error")).getD outer
  let given := fun (text : Option String) => text.map Json.str
  let rawCode := safeText (orElse (source.get? "code")
    (orElse (outer.get? "error_code") (given defaults.code))) 64
  let code := match rawCode with
    | some raw => if isErrorCode raw then raw else "INTERNAL_ERROR"
    | none => "INTERNAL_ERROR"
  let category := safeText (orElse (source.get? "category") (given defaults.category)) 64
  let serverMessage := safeText (orElse (source.get? "message") none) 500
  { code
    message :=
      if category = some "provider" ∨ code ∈ providerCodes ∨ code ∈ fixedClientMessageCodes then
        publicErrorMessage code
      else serverMessage.getD (publicErrorMessage code)
    retryable := match source.get? "retryable" with
      | some (.bool b) => b
      | _ => defaults.retryable.getD (decide (code ∈ retryableCodes))
    category
    stage := safeText (orElse (source.get? "stage") (given defaults.stage)) 64
    provider := safeText (source.get? "provider") 80
    retryAfterSeconds := (asNumber (orElse (source.get? "retry_after")
      (orElse (source.get? "retry_after_seconds") (source.get? "retryAfterSeconds")))).filter
        fun q => decide (0 ≤ q)
    requestId := safeText (orElse (source.get? "request_id") (source.get? "requestId")) 120 }

end SuperMew.Frontend
