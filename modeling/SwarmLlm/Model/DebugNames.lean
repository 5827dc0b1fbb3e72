import Mathlib.Data.List.Nodup
import SwarmLlm.Model.Manifest

namespace SwarmLlm.Model

open Lib List ModelArchitecture

theorem run_ends {test : Char → Bool} {front other : Text} {stop halt : Char} {rest others : Text}
    (inside : ∀ symbol ∈ front, test symbol = true) (within : ∀ symbol ∈ other, test symbol = true)
    (stops : test stop = false) (halts : test halt = false) (same : front ++ stop :: rest = other ++ halt :: others) :
    front = other ∧ stop :: rest = halt :: others := by
  have first := congrArg (List.takeWhile test) same
  rw [takeWhile_append_of_pos inside, takeWhile_append_of_pos within,
    takeWhile_cons_of_neg (by simp [stops]), takeWhile_cons_of_neg (by simp [halts]), append_nil,
    append_nil] at first
  rw [first] at same
  exact ⟨first, append_cancel_left same⟩

theorem number_ends {first second : UInt32} (stop halt : Char) (rest others : Text) (stops : stop.isDigit = false)
    (halts : halt.isDigit = false)
    (same : (debugNumber first).toList ++ stop :: rest = (debugNumber second).toList ++ halt :: others) :
    first = second ∧ stop :: rest = halt :: others := by
  have digits : ∀ number : UInt32, ∀ symbol ∈ (debugNumber number).toList, symbol.isDigit = true := by
    intro number symbol member
    rw [debugNumber, Nat.toString_eq_repr, Nat.toList_repr] at member
    exact Nat.isDigit_of_mem_toDigits (by decide) (by decide) member
  obtain ⟨numerals, ends⟩ := run_ends (digits first) (digits second) stops halts same
  rw [debugNumber, debugNumber, Nat.toString_eq_repr, Nat.toString_eq_repr, Nat.toList_repr, Nat.toList_repr] at numerals
  have numbers := congrArg (fun digits => Nat.ofDigitChars 10 digits 0) numerals
  exact ⟨UInt32.toNat_inj.mp (by simpa using numbers), ends⟩

def numberFields (labels : List String) (numbers : List UInt32) : List (String × String) :=
  labels.zip (numbers.map debugNumber)

theorem debug_fields_last (label text : String) :
    (debugFields [(label, text)] ++ " \x7d").toList = (label ++ ": ").toList ++ (text.toList ++ ' ' :: ['\x7d']) := by
  have shape : debugFields [(label, text)] ++ " \x7d" = label ++ ": " ++ text ++ " \x7d" := rfl
  have close : " \x7d".toList = ' ' :: ['\x7d'] := rfl
  rw [shape, String.toList_append, String.toList_append, close, append_assoc]

theorem debug_fields_cons (label text : String) (next : String × String) (rest : List (String × String)) :
    (debugFields ((label, text) :: next :: rest) ++ " \x7d").toList = (label ++ ": ").toList ++ (text.toList ++
      ',' :: (' ' :: (debugFields (next :: rest) ++ " \x7d").toList)) := by
  have shape : debugFields ((label, text) :: next :: rest) ++ " \x7d" =
      label ++ ": " ++ text ++ ", " ++ debugFields (next :: rest) ++ " \x7d" := rfl
  have comma : ", ".toList = [',', ' '] := rfl
  rw [shape, String.append_assoc, String.toList_append, String.toList_append, String.toList_append, comma,
    append_assoc, append_assoc]
  rfl

theorem debug_fields_inj (labels : List String) (numbers others : List UInt32) (length : numbers.length = labels.length)
    (otherLength : others.length = labels.length)
    (same : (debugFields (numberFields labels numbers) ++ " \x7d").toList =
      (debugFields (numberFields labels others) ++ " \x7d").toList) : numbers = others := by
  induction labels generalizing numbers others with
  | nil => rw [eq_nil_of_length_eq_zero length, eq_nil_of_length_eq_zero otherLength]
  | cons label labels ih =>
    obtain ⟨number, numbers, rfl⟩ := exists_cons_of_length_eq_add_one length
    obtain ⟨other, others, rfl⟩ := exists_cons_of_length_eq_add_one otherLength
    have left : numbers.length = labels.length := Nat.succ.inj length
    have otherLeft : others.length = labels.length := Nat.succ.inj otherLength
    cases labels with
    | nil =>
      rw [eq_nil_of_length_eq_zero left, eq_nil_of_length_eq_zero otherLeft] at same ⊢
      have fields : ∀ field, numberFields [label] [field] = [(label, debugNumber field)] := fun _ => rfl
      rw [fields, fields, debug_fields_last, debug_fields_last] at same
      obtain ⟨rfl, -⟩ := number_ends ' ' ' ' _ _ rfl rfl (append_cancel_left same)
      rfl
    | cons next labels =>
      obtain ⟨second, numbers, rfl⟩ := exists_cons_of_length_eq_add_one left
      obtain ⟨twin, others, rfl⟩ := exists_cons_of_length_eq_add_one otherLeft
      have fields : ∀ field more rest, numberFields (label :: next :: labels) (field :: more :: rest) =
          (label, debugNumber field) :: (next, debugNumber more) :: numberFields labels rest := fun _ _ _ => rfl
      rw [fields, fields, debug_fields_cons, debug_fields_cons] at same
      obtain ⟨rfl, later⟩ := number_ends ',' ',' _ _ rfl rfl (append_cancel_left same)
      have rest := ih (second :: numbers) (twin :: others) left otherLeft (List.cons.inj (List.cons.inj later).2).2
      rw [rest]

theorem debug_record_text (name : String) (fields : List (String × String)) :
    debugRecord name fields = name ++ " \x7b " ++ (debugFields fields ++ " \x7d") := String.append_assoc

variable {fields : List (String × String)}

theorem debug_record_inj (name : String) (others : List (String × String))
    (same : debugRecord name fields = debugRecord name others) :
    (debugFields fields ++ " \x7d").toList = (debugFields others ++ " \x7d").toList := by
  rw [debug_record_text, debug_record_text] at same
  have text : (name ++ " \x7b ").toList ++ (debugFields fields ++ " \x7d").toList =
      (name ++ " \x7b ").toList ++ (debugFields others ++ " \x7d").toList := by
    rw [← String.toList_append, same, String.toList_append]
  exact append_cancel_left text

variable {name : String}

theorem debug_experts_inj {experts perToken others otherToken : UInt32}
    (same : debugExperts name experts perToken = debugExperts name others otherToken) :
    experts = others ∧ perToken = otherToken := by
  have numbers := debug_fields_inj ["num_experts", "experts_per_token"] [experts, perToken] [others, otherToken] rfl rfl
    (debug_record_inj name _ same)
  simpa using numbers

theorem vision_debug_inj {config other : VisionConfig} (same : config.debug = other.debug) : config = other := by
  have numbers := debug_fields_inj
    ["image_size", "patch_size", "vision_hidden_size", "vision_num_layers", "vision_num_heads", "projection_dim"]
    [config.imageSize, config.patchSize, config.visionHiddenSize, config.visionNumLayers, config.visionNumHeads,
      config.projectionDim]
    [other.imageSize, other.patchSize, other.visionHiddenSize, other.visionNumLayers, other.visionNumHeads,
      other.projectionDim] rfl rfl (debug_record_inj "VisionConfig" _ same)
  cases config
  cases other
  simpa using numbers

theorem debug_vision_inj {config other : VisionConfig}
    (same : debugVision name config = debugVision name other) : config = other := by
  have text := debug_record_inj name _ same
  rw [debug_fields_last, debug_fields_last] at text
  have printed := append_cancel_right (append_cancel_left text)
  exact vision_debug_inj (String.toList_inj.mp printed)

def ModelArchitecture.variant : ModelArchitecture → String
  | .llama => "Llama"
  | .mistral => "Mistral"
  | .mixtral _ _ => "Mixtral"
  | .qwen2 => "Qwen2"
  | .deepSeek _ _ => "DeepSeek"
  | .phi => "Phi"
  | .llava _ => "LLaVA"
  | .qwen2VL _ => "Qwen2VL"
  | .glm4 => "Glm4"
  | .llama4 _ _ => "Llama4"
  | .qwen35 => "Qwen35"
  | .qwen35Moe _ _ => "Qwen35Moe"

theorem record_word (word : name.toList.all (· != ' ') = true) :
    (debugRecord name fields).toList.takeWhile (· != ' ') = name.toList := by
  have blank : " \x7b ".toList = ' ' :: ['\x7b', ' '] := rfl
  rw [debug_record_text, String.toList_append, String.toList_append, blank, append_assoc,
    takeWhile_append_of_pos (all_eq_true.mp word), cons_append, takeWhile_cons_of_neg (by decide),
    append_nil]

theorem debug_word (architecture : ModelArchitecture) :
    architecture.debug.toList.takeWhile (· != ' ') = architecture.variant.toList := by
  cases architecture with
  | mixtral | deepSeek | llava | qwen2VL | llama4 | qwen35Moe => exact record_word (by decide)
  | _ => decide

theorem architecture_debug_inj (first second : ModelArchitecture) (same : first.debug = second.debug) : first = second := by
  have variants : first.variant = second.variant := by
    have words := congrArg (fun text : String => text.toList.takeWhile (· != ' ')) same
    rw [debug_word, debug_word] at words
    exact String.toList_inj.mp words
  cases first <;> cases second <;> simp [variant] at variants
  case mixtral.mixtral | deepSeek.deepSeek | llama4.llama4 | qwen35Moe.qwen35Moe =>
    obtain ⟨rfl, rfl⟩ := debug_experts_inj same
    rfl
  case llava.llava | qwen2VL.qwen2VL => rw [debug_vision_inj same]
  all_goals rfl

def quantizations : List Quantization :=
  [.q2K, .q3KS, .q3KM, .q3KL, .q4KS, .q4KM, .q5KS, .q5KM, .q6K, .q4_0, .q4_1, .q5_0, .q5_1, .q8_0, .iq1S, .iq1M, .iq2XXS,
    .iq2XS, .iq2S, .iq2M, .iq3XXS, .iq3XS, .iq3S, .iq3M, .iq4XS, .iq4NL, .fp16, .bf16, .fp32, .unknown]

theorem quantization_debug_inj (first second : Quantization) (same : first.debug = second.debug) : first = second := by
  have listed : ∀ quantization : Quantization, quantization ∈ quantizations := by
    intro quantization
    cases quantization <;> decide
  have distinct : (quantizations.map Quantization.debug).Nodup := by decide
  exact inj_on_of_nodup_map distinct (listed first) (listed second) same

end SwarmLlm.Model
