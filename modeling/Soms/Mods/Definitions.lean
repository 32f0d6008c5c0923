import Mathlib.Algebra.Order.Field.Rat
import Soms.Replays.Retention

/-!
# The mods of the rulesets

`models/mods/definition.py` and what it uses of `static/mods.json`: of every mod its settings and
the mods it excludes.  Floating point numbers are rational numbers.
-/

namespace Soms.Mods

open Soms.Replays (APIMod ApiMods SettingDefinition Value)

/-- `Mod` -/
structure Mod where
  acronym : String
  settings : List SettingDefinition
  incompatibleMods : List String

/-! ## The table -/

def boolean (name : String) (defaultValue : Bool) : SettingDefinition :=
  ⟨name, "boolean", .bool defaultValue⟩

def number (name : String) (defaultValue : Value) : SettingDefinition :=
  ⟨name, "number", defaultValue⟩

def string (name : String) (defaultValue : String) : SettingDefinition :=
  ⟨name, "string", .str defaultValue⟩

/-- Ruleset 0. -/
def osuMods : List Mod :=
  [ ⟨"EZ", [number "retries" (.int 2)], ["HR", "AC", "DA"]⟩,
    ⟨"NF", [], ["SD", "PF", "AC", "CN"]⟩,
    ⟨"HT", [number "speed_change" (.float (3 / 4)), boolean "adjust_pitch" false],
      ["HT", "DC", "DT", "NC", "WU", "WD", "AS"]⟩,
    ⟨"DC", [number "speed_change" (.float (3 / 4))], ["HT", "DC", "DT", "NC", "WU", "WD", "AS"]⟩,
    ⟨"HR", [], ["EZ", "DA", "MR"]⟩,
    ⟨"SD", [boolean "fail_on_slider_tail" false, boolean "restart" false],
      ["NF", "PF", "TP", "CN"]⟩,
    ⟨"PF", [boolean "restart" true], ["NF", "SD", "AC", "CN"]⟩,
    ⟨"DT", [number "speed_change" (.float (3 / 2)), boolean "adjust_pitch" false],
      ["HT", "DC", "DT", "NC", "WU", "WD", "AS"]⟩,
    ⟨"NC", [number "speed_change" (.float (3 / 2))], ["HT", "DC", "DT", "NC", "WU", "WD", "AS"]⟩,
    ⟨"HD", [boolean "only_fade_approach_circles" false], ["TC", "SI", "AD", "FR", "DP"]⟩,
    ⟨"TC", [], ["HD", "TP", "SI", "GR", "DF", "DP"]⟩,
    ⟨"FL", [number "follow_delay" (.float 120), number "size_multiplier" (.float 1),
      boolean "combo_based_size" true], ["BL", "BM"]⟩,
    ⟨"BL", [], ["FL"]⟩,
    ⟨"ST", [], ["TP", "CL"]⟩,
    ⟨"AC", [number "minimum_accuracy" (.float (9 / 10)), string "accuracy_judge_mode" "0",
      boolean "restart" false], ["EZ", "NF", "PF", "CN"]⟩,
    ⟨"TP", [number "seed" .null, boolean "metronome" true],
      ["SD", "TC", "ST", "DA", "RD", "SO", "AD", "DP"]⟩,
    ⟨"DA", [number "circle_size" .null, number "approach_rate" .null, number "drain_rate" .null,
      number "overall_difficulty" .null, boolean "extended_limits" false], ["EZ", "HR", "TP"]⟩,
    ⟨"CL", [boolean "no_slider_head_accuracy" true, boolean "classic_note_lock" true,
      boolean "always_play_tail_sample" true, boolean "fade_hit_circle_early" true,
      boolean "classic_health" true], ["ST"]⟩,
    ⟨"RD", [number "angle_sharpness" (.float 7), number "seed" .null], ["TP"]⟩,
    ⟨"MR", [string "reflection" "0"], ["HR"]⟩,
    ⟨"AL", [], ["SG", "AT", "CN", "RX"]⟩,
    ⟨"SG", [], ["AL", "AT", "CN", "RX"]⟩,
    ⟨"AT", [], ["AL", "SG", "CN", "RX", "AP", "SO", "MG", "RP", "AS", "TD"]⟩,
    ⟨"CN", [],
      ["NF", "SD", "PF", "AC", "AL", "SG", "AT", "CN", "RX", "AP", "SO", "MG", "RP", "AS", "TD"]⟩,
    ⟨"RX", [], ["AL", "SG", "AT", "CN", "AP", "MG"]⟩,
    ⟨"AP", [], ["AT", "CN", "RX", "SO", "MG", "RP", "TD"]⟩,
    ⟨"SO", [], ["TP", "AT", "CN", "AP"]⟩,
    ⟨"TR", [], ["WG", "MG", "RP", "FR", "DP"]⟩,
    ⟨"WG", [number "strength" (.float 1)], ["TR", "MG", "RP", "DP"]⟩,
    ⟨"SI", [], ["HD", "TC", "GR", "DF", "AD", "DP"]⟩,
    ⟨"GR", [number "start_scale" (.float (1 / 2))], ["TC", "SI", "GR", "DF", "AD", "DP"]⟩,
    ⟨"DF", [number "start_scale" (.float 2)], ["TC", "SI", "GR", "DF", "AD", "DP"]⟩,
    ⟨"WU", [number "initial_rate" (.float 1), number "final_rate" (.float (3 / 2)),
      boolean "adjust_pitch" true], ["HT", "DC", "DT", "NC", "WD", "AS"]⟩,
    ⟨"WD", [number "initial_rate" (.float 1), number "final_rate" (.float (3 / 4)),
      boolean "adjust_pitch" true], ["HT", "DC", "DT", "NC", "WU", "AS"]⟩,
    ⟨"BR", [number "spin_speed" (.float (1 / 2)), string "direction" "0"], ["BU"]⟩,
    ⟨"AD", [number "scale" (.float 4), string "style" "1"], ["HD", "TP", "SI", "GR", "DF", "FR"]⟩,
    ⟨"MU", [boolean "inverse_muting" false, boolean "enable_metronome" true,
      number "mute_combo_count" (.int 100), boolean "affects_hit_sounds" true], []⟩,
    ⟨"NS", [number "hidden_combo_count" (.int 10)], ["BM"]⟩,
    ⟨"MG", [number "attraction_strength" (.float (1 / 2))],
      ["AT", "CN", "RX", "AP", "TR", "WG", "RP", "BU", "DP"]⟩,
    ⟨"RP", [number "repulsion_strength" (.float (1 / 2))],
      ["AT", "CN", "AP", "TR", "WG", "MG", "BU", "DP"]⟩,
    ⟨"AS", [number "initial_rate" (.float 1), boolean "adjust_pitch" true],
      ["HT", "DC", "DT", "NC", "AT", "CN", "WU", "WD"]⟩,
    ⟨"FR", [], ["HD", "TR", "AD", "DP"]⟩,
    ⟨"BU", [], ["BR", "MG", "RP"]⟩,
    ⟨"SY", [], []⟩,
    ⟨"DP", [number "max_depth" (.float 100), boolean "show_approach_circles" true],
      ["HD", "TC", "TP", "TR", "WG", "SI", "GR", "DF", "MG", "RP", "FR", "DP"]⟩,
    ⟨"BM", [number "max_size_combo_count" (.int 50), number "max_cursor_size" (.float 10)],
      ["FL", "NS", "TD"]⟩,
    ⟨"TD", [], ["AT", "CN", "AP", "BM"]⟩,
    ⟨"SV2", [], []⟩]

/-- Ruleset 1. -/
def taikoMods : List Mod :=
  [ ⟨"EZ", [], ["HR", "DA"]⟩,
    ⟨"NF", [], ["SD", "PF", "AC", "CN"]⟩,
    ⟨"HT", [number "speed_change" (.float (3 / 4)), boolean "adjust_pitch" false],
      ["HT", "DC", "DT", "NC", "WU", "WD", "AS"]⟩,
    ⟨"DC", [number "speed_change" (.float (3 / 4))], ["HT", "DC", "DT", "NC", "WU", "WD", "AS"]⟩,
    ⟨"SR", [boolean "one_third_conversion" false, boolean "one_sixth_conversion" true,
      boolean "one_eighth_conversion" false], []⟩,
    ⟨"HR", [], ["EZ", "DA"]⟩,
    ⟨"SD", [boolean "restart" false], ["NF", "PF", "CN"]⟩,
    ⟨"PF", [boolean "restart" true], ["NF", "SD", "AC", "CN"]⟩,
    ⟨"DT", [number "speed_change" (.float (3 / 2)), boolean "adjust_pitch" false],
      ["HT", "DC", "DT", "NC", "WU", "WD", "AS"]⟩,
    ⟨"NC", [number "speed_change" (.float (3 / 2))], ["HT", "DC", "DT", "NC", "WU", "WD", "AS"]⟩,
    ⟨"HD", [], []⟩,
    ⟨"FL", [number "size_multiplier" (.float 1), boolean "combo_based_size" true], []⟩,
    ⟨"AC", [number "minimum_accuracy" (.float (9 / 10)), string "accuracy_judge_mode" "0",
      boolean "restart" false], ["NF", "PF", "CN"]⟩,
    ⟨"RD", [number "seed" .null], ["SW"]⟩,
    ⟨"DA", [number "scroll_speed" .null, number "drain_rate" .null,
      number "overall_difficulty" .null, boolean "extended_limits" false], ["EZ", "HR"]⟩,
    ⟨"CL", [], []⟩,
    ⟨"SW", [], ["RD"]⟩,
    ⟨"SG", [], ["AT", "CN", "RX"]⟩,
    ⟨"CS", [], []⟩,
    ⟨"AT", [], ["SG", "CN", "RX", "AS"]⟩,
    ⟨"CN", [], ["NF", "SD", "PF", "AC", "SG", "AT", "CN", "RX", "AS"]⟩,
    ⟨"RX", [], ["SG", "AT", "CN"]⟩,
    ⟨"WU", [number "initial_rate" (.float 1), number "final_rate" (.float (3 / 2)),
      boolean "adjust_pitch" true], ["HT", "DC", "DT", "NC", "WD", "AS"]⟩,
    ⟨"WD", [number "initial_rate" (.float 1), number "final_rate" (.float (3 / 4)),
      boolean "adjust_pitch" true], ["HT", "DC", "DT", "NC", "WU", "AS"]⟩,
    ⟨"MU", [boolean "inverse_muting" false, boolean "enable_metronome" true,
      number "mute_combo_count" (.int 100), boolean "affects_hit_sounds" true], []⟩,
    ⟨"AS", [number "initial_rate" (.float 1), boolean "adjust_pitch" true],
      ["HT", "DC", "DT", "NC", "AT", "CN", "WU", "WD"]⟩,
    ⟨"SV2", [], []⟩]

/-- Ruleset 2. -/
def fruitsMods : List Mod :=
  [ ⟨"EZ", [number "retries" (.int 2)], ["HR", "AC", "DA"]⟩,
    ⟨"NF", [], ["SD", "PF", "AC", "CN"]⟩,
    ⟨"HT", [number "speed_change" (.float (3 / 4)), boolean "adjust_pitch" false],
      ["HT", "DC", "DT", "NC", "WU", "WD"]⟩,
    ⟨"DC", [number "speed_change" (.float (3 / 4))], ["HT", "DC", "DT", "NC", "WU", "WD"]⟩,
    ⟨"HR", [], ["EZ", "DA"]⟩,
    ⟨"SD", [boolean "restart" false], ["NF", "PF", "CN"]⟩,
    ⟨"PF", [boolean "restart" true], ["NF", "SD", "AC", "CN"]⟩,
    ⟨"DT", [number "speed_change" (.float (3 / 2)), boolean "adjust_pitch" false],
      ["HT", "DC", "DT", "NC", "WU", "WD"]⟩,
    ⟨"NC", [number "speed_change" (.float (3 / 2))], ["HT", "DC", "DT", "NC", "WU", "WD"]⟩,
    ⟨"HD", [], []⟩,
    ⟨"FL", [number "size_multiplier" (.float 1), boolean "combo_based_size" true], []⟩,
    ⟨"AC", [number "minimum_accuracy" (.float (9 / 10)), string "accuracy_judge_mode" "0",
      boolean "restart" false], ["EZ", "NF", "PF", "CN"]⟩,
    ⟨"DA", [number "circle_size" .null, number "approach_rate" .null,
      boolean "hard_rock_offsets" false, number "drain_rate" .null,
      number "overall_difficulty" .null, boolean "extended_limits" false], ["EZ", "HR"]⟩,
    ⟨"CL", [], []⟩,
    ⟨"MR", [], []⟩,
    ⟨"AT", [], ["CN", "RX", "MF"]⟩,
    ⟨"CN", [], ["NF", "SD", "PF", "AC", "AT", "CN", "RX", "MF"]⟩,
    ⟨"RX", [], ["AT", "CN", "MF"]⟩,
    ⟨"WU", [number "initial_rate" (.float 1), number "final_rate" (.float (3 / 2)),
      boolean "adjust_pitch" true], ["HT", "DC", "DT", "NC", "WD"]⟩,
    ⟨"WD", [number "initial_rate" (.float 1), number "final_rate" (.float (3 / 4)),
      boolean "adjust_pitch" true], ["HT", "DC", "DT", "NC", "WU"]⟩,
    ⟨"FF", [], []⟩,
    ⟨"MU", [boolean "inverse_muting" false, boolean "enable_metronome" true,
      number "mute_combo_count" (.int 100), boolean "affects_hit_sounds" true], []⟩,
    ⟨"NS", [number "hidden_combo_count" (.int 10)], []⟩,
    ⟨"MF", [], ["AT", "CN", "RX"]⟩,
    ⟨"SY", [], []⟩,
    ⟨"SV2", [], []⟩]

/-- Ruleset 3. -/
def maniaMods : List Mod :=
  [ ⟨"EZ", [number "retries" (.int 2)], ["HR", "AC", "DA"]⟩,
    ⟨"NF", [], ["SD", "PF", "AC", "CN"]⟩,
    ⟨"HT", [number "speed_change" (.float (3 / 4)), boolean "adjust_pitch" false],
      ["HT", "DC", "DT", "NC", "WU", "WD", "AS"]⟩,
    ⟨"DC", [number "speed_change" (.float (3 / 4))], ["HT", "DC", "DT", "NC", "WU", "WD", "AS"]⟩,
    ⟨"NR", [], ["IN", "HO"]⟩,
    ⟨"HR", [], ["EZ", "DA"]⟩,
    ⟨"SD", [boolean "restart" false], ["NF", "PF", "CN"]⟩,
    ⟨"PF", [boolean "require_perfect_hits" false, boolean "restart" true],
      ["NF", "SD", "AC", "CN"]⟩,
    ⟨"DT", [number "speed_change" (.float (3 / 2)), boolean "adjust_pitch" false],
      ["HT", "DC", "DT", "NC", "WU", "WD", "AS"]⟩,
    ⟨"NC", [number "speed_change" (.float (3 / 2))], ["HT", "DC", "DT", "NC", "WU", "WD", "AS"]⟩,
    ⟨"FI", [], ["FI", "HD", "CO", "FL"]⟩,
    ⟨"HD", [], ["FI", "CO", "FL"]⟩,
    ⟨"CO", [number "coverage" (.float (1 / 2)), string "direction" "0"], ["FI", "HD", "FL"]⟩,
    ⟨"FL", [number "size_multiplier" (.float 1), boolean "combo_based_size" false],
      ["FI", "HD", "CO"]⟩,
    ⟨"AC", [number "minimum_accuracy" (.float (9 / 10)), string "accuracy_judge_mode" "0",
      boolean "restart" false], ["EZ", "NF", "PF", "CN"]⟩,
    ⟨"RD", [number "seed" .null], []⟩,
    ⟨"DS", [], []⟩,
    ⟨"MR", [], []⟩,
    ⟨"DA", [number "overall_difficulty" .null, number "drain_rate" .null,
      boolean "extended_limits" false], ["EZ", "HR"]⟩,
    ⟨"CL", [], []⟩,
    ⟨"IN", [], ["NR", "HO"]⟩,
    ⟨"CS", [], []⟩,
    ⟨"HO", [], ["NR", "IN"]⟩,
    ⟨"1K", [], ["2K", "3K", "4K", "5K", "6K", "7K", "8K", "9K", "10K"]⟩,
    ⟨"2K", [], ["1K", "3K", "4K", "5K", "6K", "7K", "8K", "9K", "10K"]⟩,
    ⟨"3K", [], ["1K", "2K", "4K", "5K", "6K", "7K", "8K", "9K", "10K"]⟩,
    ⟨"4K", [], ["1K", "2K", "3K", "5K", "6K", "7K", "8K", "9K", "10K"]⟩,
    ⟨"5K", [], ["1K", "2K", "3K", "4K", "6K", "7K", "8K", "9K", "10K"]⟩,
    ⟨"6K", [], ["1K", "2K", "3K", "4K", "5K", "7K", "8K", "9K", "10K"]⟩,
    ⟨"7K", [], ["1K", "2K", "3K", "4K", "5K", "6K", "8K", "9K", "10K"]⟩,
    ⟨"8K", [], ["1K", "2K", "3K", "4K", "5K", "6K", "7K", "9K", "10K"]⟩,
    ⟨"9K", [], ["1K", "2K", "3K", "4K", "5K", "6K", "7K", "8K", "10K"]⟩,
    ⟨"10K", [], ["1K", "2K", "3K", "4K", "5K", "6K", "7K", "8K", "9K"]⟩,
    ⟨"AT", [], ["CN", "AS"]⟩,
    ⟨"CN", [], ["NF", "SD", "PF", "AC", "AT", "CN", "AS"]⟩,
    ⟨"WU", [number "initial_rate" (.float 1), number "final_rate" (.float (3 / 2)),
      boolean "adjust_pitch" true], ["HT", "DC", "DT", "NC", "WD", "AS"]⟩,
    ⟨"WD", [number "initial_rate" (.float 1), number "final_rate" (.float (3 / 4)),
      boolean "adjust_pitch" true], ["HT", "DC", "DT", "NC", "WU", "AS"]⟩,
    ⟨"MU", [boolean "inverse_muting" false, boolean "enable_metronome" true,
      number "mute_combo_count" (.int 100), boolean "affects_hit_sounds" true], []⟩,
    ⟨"AS", [number "initial_rate" (.float 1), boolean "adjust_pitch" true],
      ["HT", "DC", "DT", "NC", "AT", "CN", "WU", "WD"]⟩,
    ⟨"SV2", [], []⟩]

/-- Ruleset 10. -/
def sentakkiMods : List Mod :=
  [ ⟨"HT", [number "speed_change" (.float (3 / 4)), boolean "adjust_pitch" false],
      ["HT", "DC", "DT", "NC", "WU", "WD", "AS"]⟩,
    ⟨"DC", [number "speed_change" (.float (3 / 4))], ["HT", "DC", "DT", "NC", "WU", "WD", "AS"]⟩,
    ⟨"HR", [string "judgement_mode" "1", string "minimum_valid_result" "2",
      boolean "strict_slider_tracking" false], []⟩,
    ⟨"SD", [boolean "restart" false], ["PF", "C", "AT"]⟩,
    ⟨"PF", [boolean "restart" true], ["SD", "C", "AT"]⟩,
    ⟨"C", [string "live_setting" "50", boolean "restart" false], ["SD", "PF", "C", "AC", "AT"]⟩,
    ⟨"AC", [number "minimum_accuracy" (.float (9 / 10)), string "accuracy_judge_mode" "0",
      boolean "restart" false], ["SD", "PF", "C", "AC", "AT"]⟩,
    ⟨"DT", [number "speed_change" (.float (3 / 2)), boolean "adjust_pitch" false],
      ["HT", "DC", "DT", "NC", "WU", "WD", "AS"]⟩,
    ⟨"NC", [number "speed_change" (.float (3 / 2))], ["HT", "DC", "DT", "NC", "WU", "WD", "AS"]⟩,
    ⟨"HD", [number "visible_radius" (.float (3 / 5))], []⟩,
    ⟨"Ex", [boolean "enable_slide_fans" false, boolean "old_conversion" false,
      boolean "enable_twin_notes" false, boolean "enable_twin_slides" false], []⟩,
    ⟨"CL", [], []⟩,
    ⟨"MR", [boolean "vertical_mirrored" false, boolean "horizontal_mirrored" false], []⟩,
    ⟨"DA", [boolean "break_removal" false, boolean "ex_removal" false, boolean "all_ex" false], []⟩,
    ⟨"AT", [], ["SD", "PF", "C", "AC", "NT", "AS"]⟩,
    ⟨"NT", [], ["AT"]⟩,
    ⟨"WU", [number "initial_rate" (.float 1), number "final_rate" (.float (3 / 2)),
      boolean "adjust_pitch" true], ["HT", "DC", "DT", "NC", "WD", "AS"]⟩,
    ⟨"WD", [number "initial_rate" (.float 1), number "final_rate" (.float (3 / 4)),
      boolean "adjust_pitch" true], ["HT", "DC", "DT", "NC", "WU", "AS"]⟩,
    ⟨"BR", [number "spin_speed" (.float (1 / 2)), string "direction" "0"], []⟩,
    ⟨"MU", [boolean "inverse_muting" false, boolean "enable_metronome" true,
      number "mute_combo_count" (.int 100), boolean "affects_hit_sounds" true], []⟩,
    ⟨"AS", [number "initial_rate" (.float 1), boolean "adjust_pitch" true],
      ["HT", "DC", "DT", "NC", "AT", "WU", "WD"]⟩,
    ⟨"SY", [boolean "interval_colouring" false], []⟩,
    ⟨"TD", [], []⟩]

/-- Ruleset 11. -/
def tauMods : List Mod :=
  [ ⟨"EZ", [number "retries" (.int 2)], ["HR", "DA"]⟩,
    ⟨"NF", [], ["SD", "PF", "CN"]⟩,
    ⟨"HT", [number "speed_change" (.float (3 / 4)), boolean "adjust_pitch" false],
      ["HT", "DC", "DT", "NC", "WU", "WD", "AS"]⟩,
    ⟨"DC", [number "speed_change" (.float (3 / 4))], ["HT", "DC", "DT", "NC", "WU", "WD", "AS"]⟩,
    ⟨"LN", [], ["ST", "LT"]⟩,
    ⟨"HR", [], ["EZ", "DA"]⟩,
    ⟨"SD", [boolean "restart" false], ["NF", "PF", "CN", "AP"]⟩,
    ⟨"PF", [boolean "restart" true], ["NF", "SD", "CN"]⟩,
    ⟨"DT", [number "speed_change" (.float (3 / 2)), boolean "adjust_pitch" false],
      ["HT", "DC", "DT", "NC", "WU", "WD", "AS"]⟩,
    ⟨"NC", [number "speed_change" (.float (3 / 2))], ["HT", "DC", "DT", "NC", "WU", "WD", "AS"]⟩,
    ⟨"FO", [], []⟩,
    ⟨"FI", [], []⟩,
    ⟨"FL", [number "size_multiplier" (.float 1), boolean "combo_based_size" true], []⟩,
    ⟨"ST", [], ["LN", "LT"]⟩,
    ⟨"DA", [number "paddle_size" .null, number "approach_rate" .null, number "drain_rate" .null,
      number "overall_difficulty" .null, boolean "extended_limits" false], ["EZ", "HR"]⟩,
    ⟨"LT", [boolean "toggle_sliders" false, boolean "toggle_hard_beats" false,
      number "sliders_division_level" (.int 2)], ["LN", "ST"]⟩,
    ⟨"AT", [], ["CN", "RX", "AP", "AS", "RB"]⟩,
    ⟨"AT", [], ["CN", "RX", "AP", "AS"]⟩,
    ⟨"CN", [], ["NF", "SD", "PF", "AT", "AT", "CN", "RX", "AP", "AS"]⟩,
    ⟨"RX", [], ["AT", "AT", "CN", "AP"]⟩,
    ⟨"AP", [], ["NF", "SD", "PF", "AT", "AT", "CN", "RX"]⟩,
    ⟨"WU", [number "initial_rate" (.float 1), number "final_rate" (.float (3 / 2)),
      boolean "adjust_pitch" true], ["HT", "DC", "DT", "NC", "WD", "AS"]⟩,
    ⟨"WD", [number "initial_rate" (.float 1), number "final_rate" (.float (3 / 4)),
      boolean "adjust_pitch" true], ["HT", "DC", "DT", "NC", "WU", "AS"]⟩,
    ⟨"AS", [number "initial_rate" (.float 1), boolean "adjust_pitch" true],
      ["HT", "DC", "DT", "NC", "AT", "AT", "CN", "WU", "WD"]⟩,
    ⟨"IS", [], []⟩,
    ⟨"RB", [string "direction" "0"], ["AT"]⟩,
    ⟨"NS", [number "hidden_combo_count" (.int 10)], []⟩,
    ⟨"TC", [], []⟩,
    ⟨"DL", [number "paddle_count" (.int 2)], []⟩,
    ⟨"BR", [number "spin_speed" (.float (1 / 2)), string "direction" "0"], []⟩]

/-- Ruleset 12. -/
def rushMods : List Mod :=
  [ ⟨"NF", [], ["SD", "PF", "CN"]⟩,
    ⟨"HT", [number "speed_change" (.float (3 / 4)), boolean "adjust_pitch" false],
      ["HT", "DC", "DT", "NC", "WU", "WD"]⟩,
    ⟨"DC", [number "speed_change" (.float (3 / 4))], ["HT", "DC", "DT", "NC", "WU", "WD"]⟩,
    ⟨"SD", [boolean "restart" false], ["NF", "PF", "CN"]⟩,
    ⟨"PF", [boolean "restart" true], ["NF", "SD", "CN"]⟩,
    ⟨"DT", [number "speed_change" (.float (3 / 2)), boolean "adjust_pitch" false],
      ["HT", "DC", "DT", "NC", "WU", "WD"]⟩,
    ⟨"NC", [number "speed_change" (.float (3 / 2))], ["HT", "DC", "DT", "NC", "WU", "WD"]⟩,
    ⟨"FL", [number "size_multiplier" (.float 1), boolean "combo_based_size" true], []⟩,
    ⟨"AT", [], ["CN"]⟩,
    ⟨"CN", [], ["NF", "SD", "PF", "AT", "CN"]⟩,
    ⟨"WU", [number "initial_rate" (.float 1), number "final_rate" (.float (3 / 2)),
      boolean "adjust_pitch" true], ["HT", "DC", "DT", "NC", "WD"]⟩,
    ⟨"WD", [number "initial_rate" (.float 1), number "final_rate" (.float (3 / 4)),
      boolean "adjust_pitch" true], ["HT", "DC", "DT", "NC", "WU"]⟩]

/-- Ruleset 13. -/
def hishigataMods : List Mod :=
  [ ⟨"HT", [number "speed_change" (.float (3 / 4)), boolean "adjust_pitch" false],
      ["HT", "DC", "DT", "NC", "WU", "WD"]⟩,
    ⟨"DC", [number "speed_change" (.float (3 / 4))], ["HT", "DC", "DT", "NC", "WU", "WD"]⟩,
    ⟨"NF", [], ["SD"]⟩,
    ⟨"HR", [], []⟩,
    ⟨"SD", [boolean "restart" false], ["NF"]⟩,
    ⟨"DT", [number "speed_change" (.float (3 / 2)), boolean "adjust_pitch" false],
      ["HT", "DC", "DT", "NC", "WU", "WD"]⟩,
    ⟨"NC", [number "speed_change" (.float (3 / 2))], ["HT", "DC", "DT", "NC", "WU", "WD"]⟩,
    ⟨"HD", [], []⟩,
    ⟨"TW", [], ["UW", "IN"]⟩,
    ⟨"UW", [], ["TW", "IN"]⟩,
    ⟨"IN", [], ["TW", "UW"]⟩,
    ⟨"AT", [], []⟩,
    ⟨"WU", [number "initial_rate" (.float 1), number "final_rate" (.float (3 / 2)),
      boolean "adjust_pitch" true], ["HT", "DC", "DT", "NC", "WD"]⟩,
    ⟨"WD", [number "initial_rate" (.float 1), number "final_rate" (.float (3 / 4)),
      boolean "adjust_pitch" true], ["HT", "DC", "DT", "NC", "WU"]⟩]

/-- Ruleset 14. -/
def soyokazeMods : List Mod :=
  [ ⟨"EZ", [number "retries" (.int 2)], ["HR", "DA"]⟩,
    ⟨"NF", [], ["SD", "PF", "CN"]⟩,
    ⟨"HT", [number "speed_change" (.float (3 / 4)), boolean "adjust_pitch" false],
      ["HT", "DC", "DT", "NC", "WU", "WD"]⟩,
    ⟨"DC", [number "speed_change" (.float (3 / 4))], ["HT", "DC", "DT", "NC", "WU", "WD"]⟩,
    ⟨"ST", [], []⟩,
    ⟨"HR", [], ["EZ", "DA"]⟩,
    ⟨"SD", [boolean "restart" false], ["NF", "PF", "CN"]⟩,
    ⟨"PF", [boolean "restart" true], ["NF", "SD", "CN"]⟩,
    ⟨"DT", [number "speed_change" (.float (3 / 2)), boolean "adjust_pitch" false],
      ["HT", "DC", "DT", "NC", "WU", "WD"]⟩,
    ⟨"NC", [number "speed_change" (.float (3 / 2))], ["HT", "DC", "DT", "NC", "WU", "WD"]⟩,
    ⟨"HD", [boolean "fading_approach_circle" true], []⟩,
    ⟨"RD", [number "seed" .null], []⟩,
    ⟨"DA", [number "circle_size" .null, number "approach_rate" .null, number "drain_rate" .null,
      number "overall_difficulty" .null, boolean "extended_limits" false], ["EZ", "HR"]⟩,
    ⟨"AT", [], ["CN"]⟩,
    ⟨"CN", [], ["NF", "SD", "PF", "AT", "CN"]⟩,
    ⟨"WU", [number "initial_rate" (.float 1), number "final_rate" (.float (3 / 2)),
      boolean "adjust_pitch" true], ["HT", "DC", "DT", "NC", "WD"]⟩,
    ⟨"WD", [number "initial_rate" (.float 1), number "final_rate" (.float (3 / 4)),
      boolean "adjust_pitch" true], ["HT", "DC", "DT", "NC", "WU"]⟩,
    ⟨"HO", [], []⟩]

/-- The entries of `mods.json` for a ruleset. -/
def rulesetMods : Nat → List Mod
  | 0 => osuMods
  | 1 => taikoMods
  | 2 => fruitsMods
  | 3 => maniaMods
  | 10 => sentakkiMods
  | 11 => tauMods
  | 12 => rushMods
  | 13 => hishigataMods
  | 14 => soyokazeMods
  | _ => []

/-- `API_MODS.get(ruleset_id, {}).get(acronym)`: a dictionary keeps the last entry of a key. -/
def findMod (rulesetId : Nat) (acronym : String) : Option Mod :=
  (rulesetMods rulesetId).reverse.find? fun mod => mod.acronym = acronym

/-- The settings of `API_MODS`. -/
def apiMods : ApiMods := fun rulesetId acronym => (findMod rulesetId acronym).map (·.settings)

/-! ## Settings -/

/-- The number that Python takes a value for. -/
def toNumber : Value → Option ℚ
  | .bool b => some (if b then 1 else 0)
  | .int n => some n
  | .float q => some q
  | .null | .str _ => none

/-- `==` -/
def pyEq : Value → Value → Bool
  | .null, .null => true
  | .str s, .str t => decide (s = t)
  | a, b => (toNumber a).isSome && decide (toNumber a = toNumber b)

/-- `get_default_setting` -/
def getDefaultSetting (rulesetId : Nat) (acronym name : String) : Value :=
  (((apiMods rulesetId acronym).getD []).find? fun setting => setting.name = name).elim .null
    (·.defaultValue)

/-- The acronyms that `get_speed_rate` reads. -/
def speedMods : List String := ["DT", "NC", "HT", "DC"]

/-- One turn of the loop of `get_speed_rate`: nothing when a product is no number. -/
def multiplyRate (rate : ℚ) (mod : APIMod) : Option ℚ :=
  if mod.acronym ∈ speedMods then
    (toNumber (((mod.settings.getD []).lookup "speed_change").getD (.float 1))).map fun modRate =>
      if modRate = 0 then rate else rate * modRate
  else some rate

/-- `get_speed_rate` -/
def getSpeedRate (mods : List APIMod) : Option ℚ := mods.foldlM multiplyRate 1

end Soms.Mods
